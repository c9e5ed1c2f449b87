import CppLinq.ValueText
import Mathlib.Data.List.Basic

/-!
# Values from text

The `from_string` functions of `mapping/data_types.h` and `utf8_to_wstring`, and that they read
what `to_string` and `wstring_to_utf8` write. `iss >> n` skips blanks, takes a sign and digits
and stops at the first character that is none.
-/

namespace CppLinq

/-! ## Streams -/

/-- `std::isspace`. -/
def isSpace (c : Char) : Bool :=
  c = ' ' || c = '\t' || c = '\n' || c = '\r' || c = Char.ofNat 11 || c = Char.ofNat 12

/-- The value of digits. -/
def digitsValue (cs : List Char) : ℕ :=
  Nat.ofDigitChars 10 cs 0

/-- `iss >> n` for an `int`, which fails without digits and out of the range. -/
def readInt (cs : List Char) : Option (ℤ × List Char) :=
  let cs := cs.dropWhile isSpace
  let isNegative := cs.head? = some '-'
  let cs := if isNegative ∨ cs.head? = some '+' then cs.tail else cs
  let digits := cs.takeWhile Char.isDigit
  let z : ℤ := if isNegative then -digitsValue digits else digitsValue digits
  if digits.isEmpty ∨ ¬ (-2 ^ 31 ≤ z ∧ z < 2 ^ 31) then none
  else some (z, cs.dropWhile Char.isDigit)

/-- The number that a failed `iss >> n` leaves. -/
def failedInt (cs : List Char) : ℤ :=
  let cs := cs.dropWhile isSpace
  let isNegative := cs.head? = some '-'
  let cs := if isNegative ∨ cs.head? = some '+' then cs.tail else cs
  if (cs.takeWhile Char.isDigit).isEmpty then 0
  else if isNegative then -2 ^ 31
  else 2 ^ 31 - 1

/-- `iss >> c` for a `char`. -/
def readChar (cs : List Char) : Option (Char × List Char) :=
  match cs.dropWhile isSpace with
  | [] => none
  | c :: cs => some (c, cs)

/-- `a`, a separator and `b`. -/
def readPair (cs : List Char) : Option (ℤ × ℤ × List Char) := do
  let (a, cs) ← readInt cs
  let (_, cs) ← readChar cs
  let (b, cs) ← readInt cs
  return (a, b, cs)

/-- `a`, `b` and `c` with separators between them. -/
def readTriple (cs : List Char) : Option (ℤ × ℤ × ℤ × List Char) := do
  let (a, cs) ← readInt cs
  let (_, cs) ← readChar cs
  let (b, c, cs) ← readPair cs
  return (a, b, c, cs)

/-- Digits after a point, cut or filled to nanoseconds. -/
def readFraction : List Char → UInt32 × List Char
  | '.' :: cs =>
    let digits := cs.takeWhile Char.isDigit
    (if digits.isEmpty then 0
      else .ofNat (digitsValue (digits.take 9 ++ List.replicate (9 - digits.length) '0')),
      cs.dropWhile Char.isDigit)
  | cs => (0, cs)

/-- `static_cast` to a byte. -/
def byteOf (z : ℤ) : UInt8 :=
  .ofNat (z % 256).toNat

/-! ## Structured values -/

/-- `SqlDate::from_string`. -/
def SqlDate.fromString (cs : List Char) : SqlDate :=
  match readTriple cs with
  | some (y, m, d, _) => ⟨.ofInt y, byteOf m, byteOf d⟩
  | none => {}

/-- `SqlTime::from_string`. -/
def SqlTime.fromString (cs : List Char) : SqlTime :=
  match readTriple cs with
  | some (h, m, s, cs) => ⟨byteOf h, byteOf m, byteOf s, (readFraction cs).1⟩
  | none => {}

/-- The hours and the minutes of an offset, of the number after its sign and of what follows it. -/
def offsetParts (h : ℤ) (rest : List Char) : ℤ × ℤ :=
  if rest.head? = some ':' then
    (h, (readChar rest).elim 0 fun (_, rest) => (readInt rest).elim (failedInt rest) (·.1))
  else if h ≥ 100 then (h.tdiv 100, h.tmod 100)
  else (h, 0)

/-- The offset from UTC at the end of a timestamp. -/
def readOffset (cs : List Char) : Int16 :=
  match cs.dropWhile isSpace with
  | sign :: cs =>
    if sign = '+' ∨ sign = '-' then
      match readInt cs with
      | some (h, rest) =>
        let (h, m) := offsetParts h rest
        let offset := Int16.ofInt (h * 60 + m)
        if sign = '-' then -offset else offset
      | none => 0
    else 0
  | [] => 0

/-- `SqlTimestamp::from_string`. -/
def SqlTimestamp.fromString (cs : List Char) : SqlTimestamp :=
  match readTriple (cs.map fun c => if c = 'T' then ' ' else c) with
  | some (y, mo, d, cs) =>
    let ts : SqlTimestamp := { year := .ofInt y, month := byteOf mo, day := byteOf d }
    match readTriple cs with
    | some (h, mi, s, cs) =>
      let (fraction, cs) := readFraction cs
      { ts with
        hour := byteOf h
        minute := byteOf mi
        second := byteOf s
        fraction
        tzOffsetMinutes := readOffset cs }
    | none => ts
  | none => {}

/-! ## Reading what was written -/

/-- A text that does not begin with a digit. -/
def StopsDigits (cs : List Char) : Prop :=
  ∀ c ∈ cs.head?, c.isDigit = false

/-- Digits are taken up to what stops them. -/
theorem takeWhile_digits {digits rest : List Char} (hdigits : ∀ c ∈ digits, c.isDigit = true)
    (hrest : StopsDigits rest) : (digits ++ rest).takeWhile Char.isDigit = digits ∧
      (digits ++ rest).dropWhile Char.isDigit = rest := by
  have hstop : rest.takeWhile Char.isDigit = [] ∧ rest.dropWhile Char.isDigit = rest := by
    cases rest with
    | nil => exact ⟨rfl, rfl⟩
    | cons c rest =>
      have hc := hrest c rfl
      simp [hc]
  rw [List.takeWhile_append_of_pos hdigits, List.dropWhile_append_of_pos hdigits, hstop.1, hstop.2,
    List.append_nil]
  exact ⟨rfl, rfl⟩

theorem isDigit_of_mem_padded {w n : ℕ} {c : Char} (h : c ∈ padded w (decimal n)) :
    c.isDigit = true := by
  rcases List.mem_append.mp h with h | h
  · rw [List.eq_of_mem_replicate h]
    rfl
  · exact isDigit_of_mem_decimal h

/-- Padding changes no number. -/
theorem digitsValue_padded (w n : ℕ) : digitsValue (padded w (decimal n)) = n := by
  rw [digitsValue, padded, Nat.ofDigitChars_append, Nat.ofDigitChars_replicate_zero, Nat.mul_zero]
  exact Nat.ofDigitChars_ten_toDigits

theorem padded_ne_nil (w n : ℕ) : padded w (decimal n) ≠ [] := by
  intro h
  have hdecimal := (List.append_eq_nil_iff.mp h).2
  exact Nat.toDigits_ne_nil hdecimal

/-- A digit is no blank and no sign. -/
theorem of_isDigit {c : Char} (h : c.isDigit = true) : isSpace c = false ∧ c ≠ '-' ∧ c ≠ '+' := by
  refine ⟨?_, ?_, ?_⟩
  · by_contra hspace
    simp only [isSpace, Bool.not_eq_false, Bool.or_eq_true, decide_eq_true_eq] at hspace
    rcases hspace with ((((rfl | rfl) | rfl) | rfl) | rfl) | rfl <;> exact absurd h (by decide)
  · rintro rfl
    exact absurd h (by decide)
  · rintro rfl
    exact absurd h (by decide)

/-- A text that begins with neither a blank nor a sign is read from its head. -/
theorem head_of_plain {c : Char} (h : isSpace c = false ∧ c ≠ '-' ∧ c ≠ '+') (cs : List Char) :
    (c :: cs).dropWhile isSpace = c :: cs ∧ ¬ (c :: cs).head? = some '-' ∧
      ¬ (c :: cs).head? = some '+' :=
  ⟨List.dropWhile_cons_of_neg (by rw [h.1]; exact Bool.false_ne_true),
    fun hhead => h.2.1 (Option.some.inj hhead), fun hhead => h.2.2 (Option.some.inj hhead)⟩

/-- Digits are read up to the first other character. -/
theorem readInt_digits {digits rest : List Char} (hne : digits ≠ [])
    (hdigits : ∀ c ∈ digits, c.isDigit = true) (hvalue : digitsValue digits < 2 ^ 31)
    (hrest : StopsDigits rest) :
    readInt (digits ++ rest) = some ((digitsValue digits : ℤ), rest) := by
  obtain ⟨htake, hdrop⟩ := takeWhile_digits hdigits hrest
  obtain ⟨c, cs, rfl⟩ := List.exists_cons_of_ne_nil hne
  obtain ⟨hskip, hminus, hplus⟩ :=
    head_of_plain (of_isDigit (hdigits c List.mem_cons_self)) (cs ++ rest)
  rw [← List.cons_append] at hskip hminus hplus
  rw [readInt]
  simp only [hskip, hminus, hplus, or_self, if_false, htake, hdrop]
  rw [if_neg]
  rintro (hempty | hrange)
  · contradiction
  · exact hrange ⟨by omega, by exact_mod_cast hvalue⟩

/-- A number that was written is read. -/
theorem readInt_padded {n : ℕ} (hn : n < 2 ^ 31) (w : ℕ) {rest : List Char}
    (hrest : StopsDigits rest) : readInt (padded w (decimal n) ++ rest) = some ((n : ℤ), rest) := by
  have h := readInt_digits (padded_ne_nil w n) (fun _ => isDigit_of_mem_padded)
    (by rwa [digitsValue_padded]) hrest
  rwa [digitsValue_padded] at h

theorem readChar_of_not_isSpace {c : Char} (hc : isSpace c = false) (cs : List Char) :
    readChar (c :: cs) = some (c, cs) := by
  rw [readChar, List.dropWhile_cons_of_neg (by rw [hc]; exact Bool.false_ne_true)]

theorem stopsDigits_cons {c : Char} (hc : c.isDigit = false) (cs : List Char) :
    StopsDigits (c :: cs) := by
  rintro d ⟨⟩
  exact hc

/-- Three padded numbers with separators are read back. -/
theorem readTriple_padded {a b c : ℕ} (ha : a < 2 ^ 31) (hb : b < 2 ^ 31) (hc : c < 2 ^ 31)
    (w₁ w₂ w₃ : ℕ) {sep₁ sep₂ : Char} (hsep₁ : isSpace sep₁ = false ∧ sep₁.isDigit = false)
    (hsep₂ : isSpace sep₂ = false ∧ sep₂.isDigit = false) {rest : List Char}
    (hrest : StopsDigits rest) :
    readTriple (padded w₁ (decimal a) ++ sep₁ :: (padded w₂ (decimal b) ++ sep₂ ::
      (padded w₃ (decimal c) ++ rest))) = some ((a : ℤ), (b : ℤ), (c : ℤ), rest) := by
  rw [readTriple, readInt_padded ha w₁ (stopsDigits_cons hsep₁.2 _)]
  simp only [Option.bind_eq_bind, Option.bind_some, readChar_of_not_isSpace hsep₁.1, readPair,
    readInt_padded hb w₂ (stopsDigits_cons hsep₂.2 _), readChar_of_not_isSpace hsep₂.1,
    readInt_padded hc w₃ hrest]
  rfl

/-- A byte is read back. -/
theorem byteOf_toNat (b : UInt8) : byteOf (b.toNat : ℤ) = b := by
  rw [byteOf, Int.emod_eq_of_lt (by omega) (by exact_mod_cast b.toNat_lt)]
  simp

/-- Nanoseconds that were written are read. -/
theorem readFraction_padded {n : ℕ} (h : n < 10 ^ 9) {rest : List Char}
    (hrest : StopsDigits rest) :
    readFraction ('.' :: padded 9 (decimal n) ++ rest) = (.ofNat n, rest) := by
  have hlength : (padded 9 (decimal n)).length = 9 := by
    have hle := Nat.toDigits_length 10 n 9 (by omega) h
    rw [padded, List.length_append, List.length_replicate, decimal]
    omega
  obtain ⟨htake, hdrop⟩ := takeWhile_digits
    (fun _ => isDigit_of_mem_padded (w := 9) (n := n)) hrest
  rw [List.cons_append, readFraction]
  simp only [htake, hdrop, hlength, List.isEmpty_iff, padded_ne_nil, if_false, Nat.sub_self,
    List.replicate_zero, List.append_nil]
  rw [List.take_of_length_le (Nat.le_of_eq hlength), digitsValue_padded]

/-- A fraction that was written is read. -/
theorem readFraction_fractionText {fraction : UInt32} (h : fraction.toNat < 10 ^ 9)
    {rest : List Char} (hrest : StopsDigits rest) (hdot : rest.head? ≠ some '.') :
    readFraction (fractionText fraction ++ rest) = (fraction, rest) := by
  unfold fractionText
  split
  · rw [readFraction_padded h hrest, UInt32.ofNat_toNat]
  · rename_i hzero
    have hfraction : fraction = 0 := by
      rw [← UInt32.toNat_inj]
      have hnot := mt UInt32.lt_iff_toNat_lt.mpr hzero
      exact Nat.eq_zero_of_not_pos hnot
    rw [List.nil_append, hfraction]
    cases rest with
    | nil => rfl
    | cons c rest =>
      rw [readFraction]
      rintro cs h
      injection h with hc
      exact hdot (congrArg some hc)

theorem stopsDigits_fractionText (fraction : UInt32) {rest : List Char} (hrest : StopsDigits rest) :
    StopsDigits (fractionText fraction ++ rest) := by
  unfold fractionText
  split
  · exact stopsDigits_cons (by decide) _
  · exact hrest

theorem stopsDigits_nil : StopsDigits [] :=
  fun _ h => nomatch h

theorem dash_separates : isSpace '-' = false ∧ '-'.isDigit = false := by
  decide

theorem colon_separates : isSpace ':' = false ∧ ':'.isDigit = false := by
  decide

theorem lt_of_byte (b : UInt8) : b.toNat < 2 ^ 31 :=
  Nat.lt_trans b.toNat_lt (by decide)

/-- A year that is not negative. -/
theorem signedDecimal_year {year : Int16} (h : 0 ≤ year) :
    signedDecimal year.toInt = decimal year.toInt.toNat ∧ year.toInt.toNat < 2 ^ 31 ∧
      (year.toInt.toNat : ℤ) = year.toInt := by
  have hnonneg : 0 ≤ year.toInt := by simpa using Int16.le_iff_toInt_le.mp h
  have hlt := year.toInt_lt
  refine ⟨?_, by omega, Int.toNat_of_nonneg hnonneg⟩
  rw [signedDecimal, if_neg (by omega)]
  congr 1
  omega

/-- The date of a text is read back. -/
theorem readTriple_date {date : SqlDate} (h : 0 ≤ date.year) {rest : List Char}
    (hrest : StopsDigits rest) : readTriple (date.text ++ rest) =
      some (date.year.toInt, (date.month.toNat : ℤ), (date.day.toNat : ℤ), rest) := by
  obtain ⟨hyear, hlt, hcast⟩ := signedDecimal_year h
  have hread := readTriple_padded hlt (lt_of_byte date.month) (lt_of_byte date.day) 4 2 2
    dash_separates dash_separates hrest
  rw [hcast] at hread
  rw [SqlDate.text, hyear]
  simpa using hread

/-- The time of a text is read back. -/
theorem readTriple_clock {hour minute second : ℕ} (hhour : hour < 2 ^ 31)
    (hminute : minute < 2 ^ 31) (hsecond : second < 2 ^ 31) {rest : List Char}
    (hrest : StopsDigits rest) :
    readTriple (clockText hour minute second ++ rest) =
      some ((hour : ℤ), (minute : ℤ), (second : ℤ), rest) := by
  have hread := readTriple_padded hhour hminute hsecond 2 2 2 colon_separates colon_separates hrest
  rw [clockText]
  simpa using hread

/-- A date from year 0 on is read back. -/
theorem SqlDate.fromString_text {date : SqlDate} (h : 0 ≤ date.year) :
    SqlDate.fromString date.text = date := by
  have hread := readTriple_date h stopsDigits_nil
  rw [List.append_nil] at hread
  rw [fromString, hread]
  simp only [Int16.ofInt_toInt, byteOf_toNat]

/-- A time is read back with its nanoseconds. -/
theorem SqlTime.fromString_text {time : SqlTime} (h : time.fraction.toNat < 10 ^ 9) :
    SqlTime.fromString time.text = time := by
  have hfraction := readFraction_fractionText h stopsDigits_nil (by simp)
  rw [List.append_nil] at hfraction
  have hstop := stopsDigits_fractionText time.fraction stopsDigits_nil
  rw [List.append_nil] at hstop
  rw [fromString, text, readTriple_clock (lt_of_byte _) (lt_of_byte _) (lt_of_byte _) hstop]
  simp only [byteOf_toNat, hfraction]

/-! ## Timestamps -/

/-- The magnitude of an offset, with its sign given back. -/
theorem signed_offset (z : Int16) :
    (if z < 0 then -Int16.ofInt (z.toInt.natAbs : ℤ)
      else Int16.ofInt (z.toInt.natAbs : ℤ)) = z := by
  split
  · rename_i hlt
    have hneg : z.toInt < 0 := by simpa using Int16.lt_iff_toInt_lt.mp hlt
    rw [Int.ofNat_natAbs_of_nonpos (Int.le_of_lt hneg), Int16.ofInt_neg, Int16.neg_neg,
      Int16.ofInt_toInt]
  · rename_i hlt
    have hnonneg : 0 ≤ z.toInt := by
      have hle := mt Int16.lt_iff_toInt_lt.mpr hlt
      simpa using hle
    rw [Int.natAbs_of_nonneg hnonneg, Int16.ofInt_toInt]

/-- Every offset is read back. -/
theorem readOffset_offsetText (z : Int16) : readOffset (offsetText z) = z := by
  unfold offsetText
  split
  · rename_i hzero
    rw [hzero]
    rfl
  · have habs : z.toInt.natAbs < 2 ^ 31 := by
      have hlt := z.toInt_lt
      have hle := z.le_toInt
      omega
    have hhour := readInt_padded (by omega : z.toInt.natAbs / 60 < 2 ^ 31) 2
      (stopsDigits_cons colon_separates.2 (padded 2 (decimal (z.toInt.natAbs % 60))))
    have hminute := readInt_padded (by omega : z.toInt.natAbs % 60 < 2 ^ 31) 2 stopsDigits_nil
    rw [List.append_nil] at hminute
    have hsum : ((z.toInt.natAbs / 60 : ℕ) : ℤ) * 60 + ((z.toInt.natAbs % 60 : ℕ) : ℤ) =
        (z.toInt.natAbs : ℤ) := by omega
    have hsigned := signed_offset z
    by_cases hlt : z < 0
    · rw [if_pos hlt] at hsigned
      simp only [if_pos hlt, List.cons_append, List.append_assoc, List.nil_append, readOffset]
      rw [List.dropWhile_cons_of_neg (by decide)]
      simp only [or_true, if_true, hhour, offsetParts, List.head?_cons,
        readChar_of_not_isSpace colon_separates.1, hminute, Option.elim_some, hsum]
      exact hsigned
    · rw [if_neg hlt] at hsigned
      simp only [if_neg hlt, List.cons_append, List.append_assoc, List.nil_append, readOffset]
      rw [List.dropWhile_cons_of_neg (by decide)]
      simp only [true_or, if_true, hhour, offsetParts, List.head?_cons,
        readChar_of_not_isSpace colon_separates.1, hminute, Option.elim_some, hsum]
      rw [if_neg (by decide)]
      exact hsigned

theorem stopsDigits_offsetText (z : Int16) :
    StopsDigits (offsetText z) ∧ (offsetText z).head? ≠ some '.' := by
  unfold offsetText
  split
  · exact ⟨stopsDigits_nil, by simp⟩
  · split
    · exact ⟨stopsDigits_cons (by decide) _, by simp⟩
    · exact ⟨stopsDigits_cons (by decide) _, by simp⟩

/-- A digit, or one of the marks between numbers. -/
def DigitOr (marks : List Char) (c : Char) : Prop :=
  c.isDigit = true ∨ c ∈ marks

section DigitOr

variable {marks : List Char}

theorem digitOr_padded {w n : ℕ} : ∀ c ∈ padded w (decimal n), DigitOr marks c :=
  fun _ h => .inl (isDigit_of_mem_padded h)

theorem digitOr_append {cs ds : List Char} (hcs : ∀ c ∈ cs, DigitOr marks c)
    (hds : ∀ c ∈ ds, DigitOr marks c) : ∀ c ∈ cs ++ ds, DigitOr marks c :=
  fun c h => (List.mem_append.mp h).elim (hcs c) (hds c)

theorem digitOr_cons {c : Char} (hc : DigitOr marks c) {cs : List Char}
    (hcs : ∀ c ∈ cs, DigitOr marks c) : ∀ d ∈ c :: cs, DigitOr marks d :=
  fun d h => (List.mem_cons.mp h).elim (fun heq => heq ▸ hc) (hcs d)

theorem digitOr_mark {c : Char} (h : c ∈ marks) : ∀ d ∈ [c], DigitOr marks d :=
  fun _ hd => List.mem_singleton.mp hd ▸ .inr h

theorem digitOr_clockText (hcolon : ':' ∈ marks) (hour minute second : ℕ) :
    ∀ c ∈ clockText hour minute second, DigitOr marks c := by
  unfold clockText
  exact digitOr_append (digitOr_append (digitOr_append (digitOr_append digitOr_padded
    (digitOr_mark hcolon)) digitOr_padded) (digitOr_mark hcolon)) digitOr_padded

theorem digitOr_fractionText (hpoint : '.' ∈ marks) (fraction : UInt32) :
    ∀ c ∈ fractionText fraction, DigitOr marks c := by
  unfold fractionText
  split
  · exact digitOr_cons (.inr hpoint) digitOr_padded
  · exact fun _ h => nomatch h

end DigitOr

/-- The text of a timestamp around the text of its fraction. -/
def timestampText (ts : SqlTimestamp) (fraction : List Char) : List Char :=
  SqlDate.text ⟨ts.year, ts.month, ts.day⟩ ++
    ' ' :: (clockText ts.hour.toNat ts.minute.toNat ts.second.toNat ++
      (fraction ++ offsetText ts.tzOffsetMinutes))

theorem SqlTimestamp.text_eq (ts : SqlTimestamp) :
    ts.text = timestampText ts (fractionText ts.fraction) := by
  rw [text, timestampText]
  simp

/-- What the stream of a timestamp may hold. -/
theorem digitOr_timestampText {ts : SqlTimestamp} (hyear : 0 ≤ ts.year) {fraction : List Char}
    (hfraction : ∀ c ∈ fraction, DigitOr ['-', ':', ' ', '.', '+'] c) :
    ∀ c ∈ timestampText ts fraction, DigitOr ['-', ':', ' ', '.', '+'] c := by
  have hdate : ∀ c ∈ SqlDate.text ⟨ts.year, ts.month, ts.day⟩,
      DigitOr ['-', ':', ' ', '.', '+'] c := by
    rw [SqlDate.text, (signedDecimal_year hyear).1]
    exact digitOr_append (digitOr_append (digitOr_append (digitOr_append digitOr_padded
      (digitOr_mark (by decide))) digitOr_padded) (digitOr_mark (by decide))) digitOr_padded
  have hoffset : ∀ c ∈ offsetText ts.tzOffsetMinutes, DigitOr ['-', ':', ' ', '.', '+'] c := by
    unfold offsetText
    split
    · exact fun _ h => nomatch h
    · refine digitOr_append (digitOr_append (digitOr_cons ?_ digitOr_padded)
        (digitOr_mark (by decide))) digitOr_padded
      split <;> exact .inr (by decide)
  rw [timestampText]
  exact digitOr_append hdate (digitOr_cons (.inr (by decide))
    (digitOr_append (digitOr_clockText (by decide) _ _ _) (digitOr_append hfraction hoffset)))

/-- A timestamp is read from its parts, however its fraction is written. -/
theorem SqlTimestamp.fromString_timestampText {ts : SqlTimestamp} (hyear : 0 ≤ ts.year)
    {fraction : List Char} (hmarks : ∀ c ∈ fraction, DigitOr ['-', ':', ' ', '.', '+'] c)
    (hstop : StopsDigits (fraction ++ offsetText ts.tzOffsetMinutes))
    (hread : readFraction (fraction ++ offsetText ts.tzOffsetMinutes) =
      (ts.fraction, offsetText ts.tzOffsetMinutes)) :
    SqlTimestamp.fromString (timestampText ts fraction) = ts := by
  have hmap : (timestampText ts fraction).map (fun c => if c = 'T' then ' ' else c) =
      timestampText ts fraction := by
    refine (List.map_congr_left fun c hc => ?_).trans (List.map_id _)
    rw [if_neg]
    · rfl
    · rintro rfl
      rcases digitOr_timestampText hyear hmarks _ hc with h | h
      · exact absurd h (by decide)
      · exact absurd h (by decide)
  have hdate := @readTriple_date ⟨ts.year, ts.month, ts.day⟩ hyear _
    (stopsDigits_cons (by decide : ' '.isDigit = false)
      (clockText ts.hour.toNat ts.minute.toNat ts.second.toNat ++
        (fraction ++ offsetText ts.tzOffsetMinutes)))
  have hclock := readTriple_clock (lt_of_byte ts.hour) (lt_of_byte ts.minute)
    (lt_of_byte ts.second) hstop
  have hspace : ∀ cs, readTriple (' ' :: cs) = readTriple cs := fun _ => rfl
  rw [fromString, hmap, timestampText, hdate]
  simp only [hspace, hclock, hread, readOffset_offsetText, Int16.ofInt_toInt, byteOf_toNat]

/-- A timestamp is read back with its fraction and its offset. -/
theorem SqlTimestamp.fromString_text {ts : SqlTimestamp} (hyear : 0 ≤ ts.year)
    (hfraction : ts.fraction.toNat < 10 ^ 9) : SqlTimestamp.fromString ts.text = ts := by
  obtain ⟨hstop, hdot⟩ := stopsDigits_offsetText ts.tzOffsetMinutes
  rw [text_eq]
  exact fromString_timestampText hyear (digitOr_fractionText (by decide) _)
    (stopsDigits_fractionText ts.fraction hstop) (readFraction_fractionText hfraction hstop hdot)

/-! ## Fractions on demand -/

/-- The fraction of `to_string(include_fraction)`. -/
def fractionPart (includeFraction : Bool) (fraction : UInt32) : List Char :=
  if includeFraction ∨ fraction > 0 then '.' :: padded 9 (decimal fraction.toNat) else []

/-- `SqlTime::to_string`. -/
def SqlTime.toString (v : SqlTime) (includeFraction : Bool) : List Char :=
  clockText v.hour.toNat v.minute.toNat v.second.toNat ++ fractionPart includeFraction v.fraction

/-- `SqlTimestamp::to_string`. -/
def SqlTimestamp.toString (v : SqlTimestamp) (includeFraction : Bool) : List Char :=
  SqlDate.text ⟨v.year, v.month, v.day⟩ ++ [' '] ++
    clockText v.hour.toNat v.minute.toNat v.second.toNat ++
    fractionPart includeFraction v.fraction ++ offsetText v.tzOffsetMinutes

theorem fractionPart_false (fraction : UInt32) :
    fractionPart false fraction = fractionText fraction := by
  simp [fractionPart, fractionText]

theorem fractionPart_true (fraction : UInt32) :
    fractionPart true fraction = '.' :: padded 9 (decimal fraction.toNat) := by
  simp [fractionPart]

/-- A fraction is read back, written always or only if there is one. -/
theorem readFraction_fractionPart (includeFraction : Bool) {fraction : UInt32}
    (h : fraction.toNat < 10 ^ 9) {rest : List Char} (hrest : StopsDigits rest)
    (hdot : rest.head? ≠ some '.') :
    readFraction (fractionPart includeFraction fraction ++ rest) = (fraction, rest) := by
  cases includeFraction with
  | false => rw [fractionPart_false, readFraction_fractionText h hrest hdot]
  | true => rw [fractionPart_true, readFraction_padded h hrest, UInt32.ofNat_toNat]

theorem stopsDigits_fractionPart (includeFraction : Bool) (fraction : UInt32) {rest : List Char}
    (hrest : StopsDigits rest) : StopsDigits (fractionPart includeFraction fraction ++ rest) := by
  cases includeFraction with
  | false => exact fractionPart_false fraction ▸ stopsDigits_fractionText fraction hrest
  | true => exact fractionPart_true fraction ▸ stopsDigits_cons (by decide) _

theorem digitOr_fractionPart {marks : List Char} (hpoint : '.' ∈ marks) (includeFraction : Bool)
    (fraction : UInt32) : ∀ c ∈ fractionPart includeFraction fraction, DigitOr marks c := by
  cases includeFraction with
  | false => exact fractionPart_false fraction ▸ digitOr_fractionText hpoint fraction
  | true => exact fractionPart_true fraction ▸ digitOr_cons (.inr hpoint) digitOr_padded

theorem SqlTime.fromString_clock {time : SqlTime} (includeFraction : Bool)
    (h : time.fraction.toNat < 10 ^ 9) :
    SqlTime.fromString (time.toString includeFraction) = time := by
  have hfraction := readFraction_fractionPart includeFraction h stopsDigits_nil (by simp)
  have hstop := stopsDigits_fractionPart includeFraction time.fraction stopsDigits_nil
  rw [List.append_nil] at hfraction hstop
  rw [fromString, toString, readTriple_clock (lt_of_byte _) (lt_of_byte _) (lt_of_byte _) hstop]
  simp only [byteOf_toNat, hfraction]

theorem SqlTimestamp.fromString_parts {ts : SqlTimestamp} (includeFraction : Bool)
    (hyear : 0 ≤ ts.year) (hfraction : ts.fraction.toNat < 10 ^ 9) :
    SqlTimestamp.fromString (ts.toString includeFraction) = ts := by
  obtain ⟨hstop, hdot⟩ := stopsDigits_offsetText ts.tzOffsetMinutes
  have htext : ts.toString includeFraction =
      timestampText ts (fractionPart includeFraction ts.fraction) := by
    rw [toString, timestampText]
    simp
  rw [htext]
  exact fromString_timestampText hyear (digitOr_fractionPart (by decide) _ _)
    (stopsDigits_fractionPart _ _ hstop) (readFraction_fractionPart _ hfraction hstop hdot)

/-- Dates, times and timestamps read their own text, whether or not fractions are asked for. -/
theorem fromString_toString_all :
    (∀ date : SqlDate, 0 ≤ date.year → SqlDate.fromString date.text = date) ∧
    (∀ (time : SqlTime) (includeFraction : Bool), time.fraction.toNat < 10 ^ 9 →
      SqlTime.fromString (time.toString includeFraction) = time) ∧
    (∀ (ts : SqlTimestamp) (includeFraction : Bool), 0 ≤ ts.year → ts.fraction.toNat < 10 ^ 9 →
      SqlTimestamp.fromString (ts.toString includeFraction) = ts) :=
  ⟨fun _ h => SqlDate.fromString_text h, fun _ b h => SqlTime.fromString_clock b h,
    fun _ b hyear h => SqlTimestamp.fromString_parts b hyear h⟩

theorem fromString_toString_all_at :
    SqlDate.fromString (SqlDate.text ⟨32767, 255, 0⟩) = ⟨32767, 255, 0⟩ ∧
    SqlTime.fromString (SqlTime.toString ⟨255, 9, 61, 999999999⟩ true) =
      ⟨255, 9, 61, 999999999⟩ ∧
    SqlTimestamp.fromString (SqlTimestamp.toString ⟨0, 1, 2, 3, 4, 5, 0, -32768⟩ true) =
      ⟨0, 1, 2, 3, 4, 5, 0, -32768⟩ :=
  ⟨fromString_toString_all.1 _ (by decide), fromString_toString_all.2.1 _ _ (by decide),
    fromString_toString_all.2.2 _ _ (by decide) (by decide)⟩

/-! ## GUIDs -/

/-- `std::isxdigit`. -/
def isXDigit (c : Char) : Bool :=
  c.isDigit || (decide ('a' ≤ c) && decide (c ≤ 'f')) || (decide ('A' ≤ c) && decide (c ≤ 'F'))

/-- The number of a hexadecimal digit. -/
def hexVal (c : Char) : ℕ :=
  if '0' ≤ c ∧ c ≤ '9' then c.toNat - '0'.toNat
  else if 'a' ≤ c ∧ c ≤ 'f' then c.toNat - 'a'.toNat + 10
  else if 'A' ≤ c ∧ c ≤ 'F' then c.toNat - 'A'.toNat + 10
  else 0

/-- The byte of the digits `2 * i` and `2 * i + 1`. -/
def hexByteAt (cs : List Char) (i : ℕ) : UInt8 :=
  .ofNat (hexVal (cs.getD (i * 2) '0') * 16 + hexVal (cs.getD (i * 2 + 1) '0'))

/-- `SqlGuid::from_string`. -/
def SqlGuid.fromString (cs : List Char) : SqlGuid :=
  let hexOnly := cs.filter isXDigit
  if hexOnly.length = 32 then ⟨.ofFn fun i => hexByteAt hexOnly i⟩ else ⟨.replicate 16 0⟩

theorem hexVal_hexDigit : ∀ n < 16, hexVal (hexDigit n) = n ∧ isXDigit (hexDigit n) = true := by
  decide

theorem length_hexBytes (bs : List UInt8) : (bs.flatMap hexByte).length = bs.length * 2 := by
  induction bs with
  | nil => rfl
  | cons b bs ih =>
    rw [List.flatMap_cons, List.length_append, ih, List.length_cons, Nat.add_mul]
    simp [hexByte, Nat.add_comm]

/-- The byte is read from its two digits. -/
theorem hexByteAt_hexBytes {bs : List UInt8} {i : ℕ} {b : UInt8} (h : bs[i]? = some b) :
    hexByteAt (bs.flatMap hexByte) i = b := by
  induction bs generalizing i with
  | nil => contradiction
  | cons a bs ih =>
    cases i with
    | zero =>
      have ha := a.toNat_lt
      rw [List.getElem?_cons_zero, Option.some.injEq] at h
      subst h
      rw [List.flatMap_cons, hexByteAt, hexByte]
      simp only [Nat.zero_mul, Nat.zero_add, List.cons_append, List.getD_cons_zero,
        List.getD_cons_succ]
      rw [(hexVal_hexDigit _ (by omega)).1, (hexVal_hexDigit _ (by omega)).1, Nat.div_add_mod',
        UInt8.ofNat_toNat]
    | succ i =>
      rw [List.getElem?_cons_succ] at h
      rw [← ih h, List.flatMap_cons, hexByteAt, hexByteAt, hexByte, Nat.succ_mul]
      rfl

/-- The hexadecimal digits of a GUID's text are those of its bytes. -/
theorem filter_guidText (v : SqlGuid) :
    v.text.filter isXDigit = v.bytes.toList.flatMap hexByte := by
  have hpiece : ∀ (b : UInt8) (i : ℕ), ((if i = 4 ∨ i = 6 ∨ i = 8 ∨ i = 10 then ['-'] else []) ++
      hexByte b).filter isXDigit = hexByte b := by
    intro b i
    have hb := b.toNat_lt
    have hhex : (hexByte b).filter isXDigit = hexByte b := by
      rw [hexByte, List.filter_cons_of_pos (hexVal_hexDigit _ (by omega)).2,
        List.filter_cons_of_pos (hexVal_hexDigit _ (by omega)).2, List.filter_nil]
    rw [List.filter_append, hhex]
    split <;> rfl
  rw [SqlGuid.text, List.filter_flatMap]
  have hfst : v.bytes.toList = v.bytes.toList.zipIdx.map Prod.fst := by
    rw [List.zipIdx_map_fst]
  conv_rhs => rw [hfst, List.flatMap_map]
  exact List.flatMap_congr fun x _ => hpiece x.1 x.2

/-- A GUID is read back. -/
theorem SqlGuid.fromString_text (v : SqlGuid) : SqlGuid.fromString v.text = v := by
  have hlength : (v.text.filter isXDigit).length = 32 := by
    rw [filter_guidText, length_hexBytes, Vector.length_toList]
  rw [fromString, if_pos hlength, filter_guidText]
  obtain ⟨bytes⟩ := v
  congr 1
  ext i hi
  have hbyte : bytes.toList[i]? = some bytes[i] := by
    simp [hi]
  rw [Vector.getElem_ofFn, hexByteAt_hexBytes hbyte]

end CppLinq
