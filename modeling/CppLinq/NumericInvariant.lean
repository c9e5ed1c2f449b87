import CppLinq.NumericConversion

/-!
# What a decimal holds

`assign_string` of `SqlNumeric` takes every text with a digit in it, whatever else it holds : it
keeps scientific notation and other texts that are no numerals. Which texts become decimals is
`KeepsDecimal`. The precision and the scale of a numeral are narrowed to a byte, and
`apply_bindings` replaces those that seem to be missing (`sizes_describe_iff`).
-/

namespace CppLinq

/-! ## Texts that become decimals -/

/-- The trimmed texts that `assign_string` turns into decimals : those without a digit, which
become zero, decimal numerals, and zeros with a sign too many, which is dropped. -/
inductive KeepsDecimal (t : List Char) : Prop
  | noDigit (h : t.any Char.isDigit = false)
  | numeral (h : IsDecimal t)
  | zero {sign digits : List Char} (hsign : sign ∈ [['+', '-'], ['-', '-'], ['+', '-', '-']])
    (hdigits : IsUnsigned digits) (hzero : allZero digits = true) (h : t = sign ++ digits)

namespace SqlNumeric

theorem assignString_noDigit {cs : List Char} (h : (trim cs).any Char.isDigit = false) :
    assignString cs = zero := by
  have hsign : (if (trim cs).head? = some '+' then (trim cs).tail else trim cs).any Char.isDigit =
      false := by
    split
    · rw [List.any_eq_false] at h ⊢
      exact fun c hc => h c (List.mem_of_mem_tail hc)
    · exact h
  simp only [assignString, hsign, Bool.false_eq_true, if_false]

theorem holdsDecimal_zero : zero.HoldsDecimal ∧ zero.number = 0 := by
  have hvalue : zero.value.toList = ['0'] := rfl
  have hunsigned : IsUnsigned ['0'] := .whole (by decide) (List.all_eq_true.mp rfl)
  have hnumber : decimalValue ['0'] = 0 := by
    rw [decimalValue_unsigned hunsigned]
    exact (allZero_iff hunsigned).mp (by decide)
  refine ⟨⟨?_, ?_⟩, ?_⟩
  · rw [hvalue]
    exact .inl hunsigned
  · rw [hvalue, hnumber]
    exact ⟨(fun h => nomatch h), fun h => absurd h (lt_irrefl 0)⟩
  · rw [number, hvalue, hnumber]

/-- A text with a digit, after a plus sign that is dropped. -/
def afterPlus (t : List Char) : List Char :=
  if t.head? = some '+' then t.tail else t

theorem afterPlus_cases (t : List Char) :
    t = '+' :: afterPlus t ∨ t = afterPlus t ∧ t.head? ≠ some '+' := by
  rw [afterPlus]
  split
  · rename_i h
    match t, h with
    | _ :: _, rfl => exact .inl rfl
  · rename_i h
    exact .inr ⟨rfl, h⟩

theorem any_isDigit_afterPlus (t : List Char) :
    (afterPlus t).any Char.isDigit = t.any Char.isDigit := by
  rcases afterPlus_cases t with h | ⟨h, -⟩
  · conv_rhs => rw [h]
    rfl
  · rw [← h]

/-- What is kept of a text with a digit. -/
theorem assignString_digit {cs : List Char} (h : (trim cs).any Char.isDigit = true) :
    let s := afterPlus (trim cs)
    (assignString cs).value.toList = (if allZero s ∧ s.head? = some '-' then s.tail else s) ∧
      (assignString cs).isNegative = (decide ((trim cs).head? = some '-') && !allZero s) := by
  rw [← any_isDigit_afterPlus, afterPlus] at h
  simp only [assignString, h, if_true, String.toList_ofList]
  exact ⟨rfl, rfl⟩

/-- Zeros without their sign are zero. -/
theorem holdsDecimal_of_zeros {v : SqlNumeric} (hvalue : IsNumeral v.value.toList)
    (hzero : allZero v.value.toList = true) (hflag : v.isNegative = false) :
    v.HoldsDecimal ∧ v.number = 0 := by
  have hnumber := hvalue.abs.2.2.mp hzero
  refine ⟨⟨hvalue, ?_⟩, hnumber⟩
  rw [hnumber, hflag]
  exact ⟨(fun h => nomatch h), fun h => absurd h (lt_irrefl 0)⟩

/-- The texts of `KeepsDecimal` become decimals. -/
theorem holdsDecimal_of_keeps {cs : List Char} (h : KeepsDecimal (trim cs)) :
    (assignString cs).HoldsDecimal := by
  cases h with
  | noDigit h =>
    rw [assignString_noDigit h]
    exact holdsDecimal_zero.1
  | numeral h => exact (assignString_of_trim h).1
  | @zero sign digits hsign hdigits hzero h =>
    have hany : (trim cs).any Char.isDigit = true := by
      rw [h, List.any_append, hdigits.any_isDigit, Bool.or_true]
    obtain ⟨hvalue, hflag⟩ := assignString_digit hany
    have hminus : allZero ('-' :: digits) = true := (allZero_minus digits).trans hzero
    rw [h] at hvalue hflag
    simp only [List.mem_cons, List.not_mem_nil, or_false] at hsign
    rcases hsign with rfl | rfl | rfl
    · have hs : afterPlus (['+', '-'] ++ digits) = '-' :: digits := rfl
      rw [hs, if_pos ⟨hminus, rfl⟩] at hvalue
      refine (holdsDecimal_of_zeros (hvalue ▸ .inl hdigits) (hvalue ▸ hzero) ?_).1
      rw [hflag, hs, hminus, Bool.not_true, Bool.and_false]
    · have hs : afterPlus (['-', '-'] ++ digits) = '-' :: '-' :: digits := rfl
      have hall : allZero ('-' :: '-' :: digits) = true := hminus
      rw [hs, if_pos ⟨hall, rfl⟩] at hvalue
      refine (holdsDecimal_of_zeros (hvalue ▸ .inr ⟨digits, rfl, hdigits⟩) (hvalue ▸ hminus) ?_).1
      rw [hflag, hs, hall, Bool.not_true, Bool.and_false]
    · have hs : afterPlus (['+', '-', '-'] ++ digits) = '-' :: '-' :: digits := rfl
      have hall : allZero ('-' :: '-' :: digits) = true := hminus
      rw [hs, if_pos ⟨hall, rfl⟩] at hvalue
      refine (holdsDecimal_of_zeros (hvalue ▸ .inr ⟨digits, rfl, hdigits⟩) (hvalue ▸ hminus) ?_).1
      rw [hflag, hs, hall, Bool.not_true, Bool.and_false]

/-- No other text does. -/
theorem keeps_of_holdsDecimal {cs : List Char} (h : (assignString cs).HoldsDecimal) :
    KeepsDecimal (trim cs) := by
  by_cases hany : (trim cs).any Char.isDigit = true
  · obtain ⟨hvalue, hflag⟩ := assignString_digit hany
    obtain ⟨hnumeral, hsign⟩ := h
    rw [hvalue, hflag] at hsign
    rw [hvalue] at hnumeral
    have hcases := afterPlus_cases (trim cs)
    generalize afterPlus (trim cs) = s at hnumeral hsign hcases
    generalize trim cs = t at hsign hcases ⊢
    split at hnumeral
    · -- zeros, of which a minus sign is dropped
      rename_i hzero
      obtain ⟨hzero, hhead⟩ := hzero
      obtain ⟨u, rfl⟩ : ∃ u, s = '-' :: u := by
        match s, hhead with
        | _ :: u, rfl => exact ⟨u, rfl⟩
      have hzero : allZero u = true := hzero
      rcases hnumeral with hu | ⟨digits, hu, hdigits⟩
      · rcases hcases with rfl | ⟨rfl, -⟩
        · exact @KeepsDecimal.zero _ ['+', '-'] _ (by decide) hu hzero rfl
        · exact .numeral (.minus hu)
      · have hu : u = '-' :: digits := hu
        subst hu
        have hzero : allZero digits = true := hzero
        rcases hcases with rfl | ⟨rfl, -⟩
        · exact @KeepsDecimal.zero _ ['+', '-', '-'] _ (by decide) hdigits hzero rfl
        · exact @KeepsDecimal.zero _ ['-', '-'] _ (by decide) hdigits hzero rfl
    · rename_i hkept
      rcases hnumeral with hs | ⟨digits, rfl, hdigits⟩
      · rcases hcases with rfl | ⟨rfl, -⟩
        · exact .numeral (.plus hs)
        · exact .numeral (.unsigned hs)
      · rcases hcases with rfl | ⟨rfl, -⟩
        · -- after a plus sign the flag says that the number is not negative
          have hzero : allZero digits = false := by
            rw [← Bool.not_eq_true]
            exact fun hzero => hkept ⟨hzero, rfl⟩
          have hneg : decimalValue ('-' :: digits) < 0 := by
            rw [decimalValue_minus]
            refine neg_neg_of_pos (lt_of_le_of_ne (unsignedValue_nonneg digits) fun h => ?_)
            rw [(allZero_iff hdigits).mpr h.symm] at hzero
            contradiction
          rw [if_neg hkept] at hsign
          have hflag := hsign.mpr hneg
          simp at hflag
        · exact .numeral (.minus hdigits)
  · exact .noDigit (Bool.eq_false_iff.mpr hany)

theorem holdsDecimal_iff (cs : List Char) :
    (assignString cs).HoldsDecimal ↔ KeepsDecimal (trim cs) :=
  ⟨keeps_of_holdsDecimal, holdsDecimal_of_keeps⟩

/-- A text that is no numeral and becomes a decimal becomes zero. -/
theorem number_of_keeps {cs : List Char} (h : KeepsDecimal (trim cs))
    (hnot : ¬ IsDecimal (trim cs)) : (assignString cs).number = 0 := by
  cases h with
  | noDigit h =>
    rw [assignString_noDigit h]
    exact holdsDecimal_zero.2
  | numeral h => exact absurd h hnot
  | @zero sign digits hsign hdigits hzero h =>
    have hany : (trim cs).any Char.isDigit = true := by
      rw [h, List.any_append, hdigits.any_isDigit, Bool.or_true]
    have hzeros : allZero (assignString cs).value.toList = true := by
      have hall : allZero (trim cs) = true := by
        rw [h]
        simp only [List.mem_cons, List.not_mem_nil, or_false] at hsign
        rcases hsign with rfl | rfl | rfl <;> exact hzero
      rw [(assignString_digit hany).1]
      have hplus : allZero (afterPlus (trim cs)) = true := by
        rcases afterPlus_cases (trim cs) with heq | ⟨heq, -⟩
        · rw [heq] at hall
          exact hall
        · rwa [← heq]
      split
      · rename_i hminus
        match afterPlus (trim cs), hminus.2, hplus with
        | _ :: _, rfl, hplus => exact hplus
      · exact hplus
    exact (holdsDecimal_of_keeps (.zero hsign hdigits hzero h)).numeral.abs.2.2.mp hzeros

/-- A decimal truncates to an `int64_t` where that fits. -/
theorem toInt64_eq_truncate_iff {v : SqlNumeric} (hv : v.HoldsDecimal) :
    v.toInt64.toInt = truncate v.number ↔
      -2 ^ 63 ≤ truncate v.number ∧ truncate v.number < 2 ^ 63 := by
  rw [toInt64_eq hv]
  split
  · rename_i h
    exact ⟨fun _ => h, fun _ => rfl⟩
  · rename_i h
    refine ⟨fun heq => ?_, fun h' => absurd h' h⟩
    rw [← heq] at h
    exact absurd (by decide) h

/-- Which texts become decimals that are truncated right, and what is then compared. -/
theorem decimal_invariant_iff (cs a b : List Char) :
    ((assignString cs).HoldsDecimal ∧
        (assignString cs).toInt64.toInt = truncate (assignString cs).number ↔
      KeepsDecimal (trim cs) ∧ (IsDecimal (trim cs) →
        -2 ^ 63 ≤ truncate (decimalValue (trim cs)) ∧
          truncate (decimalValue (trim cs)) < 2 ^ 63)) ∧
    ((assignString cs).HoldsDecimal ↔ KeepsDecimal (trim cs)) ∧
    (KeepsDecimal (trim cs) →
      (IsDecimal (trim cs) → (assignString cs).number = decimalValue (trim cs)) ∧
      (¬ IsDecimal (trim cs) → (assignString cs).number = 0)) ∧
    (KeepsDecimal (trim a) → KeepsDecimal (trim b) →
      (assignString a).cmp (assignString b) =
        compare (assignString a).number (assignString b).number) := by
  refine ⟨?_, holdsDecimal_iff cs,
    fun h => ⟨fun hdecimal => (assignString_of_trim hdecimal).2, number_of_keeps h⟩,
    fun ha hb => cmp_eq (holdsDecimal_of_keeps ha) (holdsDecimal_of_keeps hb)⟩
  rw [holdsDecimal_iff]
  refine and_congr_right fun h => ?_
  rw [toInt64_eq_truncate_iff (holdsDecimal_of_keeps h)]
  by_cases hdecimal : IsDecimal (trim cs)
  · rw [(assignString_of_trim hdecimal).2]
    exact ⟨fun h _ => h, fun h => h hdecimal⟩
  · rw [number_of_keeps h hdecimal]
    exact ⟨fun _ h => absurd h hdecimal, fun _ => by decide⟩

theorem decimal_invariant_at :
    (assignString "-0.5".toList).cmp (assignString "+-0".toList) =
      compare (assignString "-0.5".toList).number (assignString "+-0".toList).number :=
  (decimal_invariant_iff [] _ _).2.2.2
    (.numeral (.minus (@IsUnsigned.point ['0'] ['5'] (by decide) (List.all_eq_true.mp rfl)
      (List.all_eq_true.mp rfl))))
    (@KeepsDecimal.zero _ ['+', '-'] ['0'] (by decide)
      (.whole (by decide) (List.all_eq_true.mp rfl))
      (by decide) (by decide))

/-- Scientific notation is kept as it stands, and `1.0e+20` is less than `2`. -/
theorem scientific_not_holdsDecimal :
    ¬ (assignString "1.0e+20".toList).HoldsDecimal ∧
      (assignString "1.0e+20".toList).toInt64 = 1 ∧
      (assignString "1.0e+20".toList).cmp (assignString "2".toList) = .lt := by
  refine ⟨fun h => ?_, by decide, by decide⟩
  have hvalue : (assignString "1.0e+20".toList).value.toList = "1.0e+20".toList := by decide
  have hnumeral := h.numeral
  rw [hvalue] at hnumeral
  rcases hnumeral with h | ⟨digits, hdigits, -⟩
  · rcases h.digit_or_point 'e' (by decide) with h | h
    · exact absurd h (by decide)
    · exact absurd h (by decide)
  · have hhead : some '1' = some '-' := congrArg List.head? hdigits
    exact absurd hhead (by decide)

/-! ## Precision and scale -/

/-- The column size that `apply_bindings` passes for a numeral. -/
def columnSize (v : SqlNumeric) : ℕ :=
  if v.precision > 0 then v.precision.toNat else 28

/-- The decimal digits that it passes. -/
def decimalDigits (v : SqlNumeric) : ℤ :=
  if v.scale ≥ 0 then v.scale.toInt else 6

end SqlNumeric

/-- The digits of a text. -/
def digitCount (cs : List Char) : ℕ :=
  cs.countP Char.isDigit

/-- The digits of a text after its point. -/
def fractionCount (cs : List Char) : ℕ :=
  (afterPoint cs).countP Char.isDigit

namespace SqlNumeric

/-- The precision and the scale are the numbers of digits, narrowed. -/
theorem numeralSizes_unsigned {cs : List Char} (h : IsUnsigned cs) :
    numeralSizes false cs = (.ofNat (digitCount cs), .ofInt (fractionCount cs)) := by
  have hall : ∀ {digits}, AllDigits digits → digits.countP Char.isDigit = digits.length := by
    intro digits hdigits
    exact List.countP_eq_length.mpr hdigits
  cases h with
  | whole hne h =>
    rw [numeralSizes, idxOf?_whole h, digitCount, fractionCount, hall h, (parts_whole h).2]
    rfl
  | @point whole fraction hne hwhole hfraction =>
    rw [numeralSizes, idxOf?_point hwhole, digitCount, fractionCount,
      (parts_point hwhole fraction).2, hall hfraction, List.countP_append, hall hwhole,
      List.countP_cons_of_neg (by decide), hall hfraction]
    simp

/-- A sign changes no size. -/
theorem assignString_sizes {cs : List Char} (h : IsDecimal cs) :
    (assignString cs).precision = .ofNat (digitCount cs) ∧
      (assignString cs).scale = .ofInt (fractionCount cs) := by
  have hunsigned : ∀ {digits : List Char}, IsUnsigned digits →
      (assignString digits).precision = .ofNat (digitCount digits) ∧
        (assignString digits).scale = .ofInt (fractionCount digits) := by
    intro digits hdigits
    rw [assignString_unsigned hdigits, numeralSizes_unsigned hdigits]
    exact ⟨rfl, rfl⟩
  cases h with
  | unsigned h => exact hunsigned h
  | @plus digits h =>
    have hcount : digitCount ('+' :: digits) = digitCount digits :=
      List.countP_cons_of_neg (by decide)
    have hfraction : fractionCount ('+' :: digits) = fractionCount digits := by
      rw [fractionCount, afterPoint, List.dropWhile_cons_of_pos (by decide)]
      rfl
    rw [assignString_plus h, hcount, hfraction]
    exact hunsigned h
  | @minus digits h =>
    have hcount : digitCount ('-' :: digits) = digitCount digits :=
      List.countP_cons_of_neg (by decide)
    have hfraction : fractionCount ('-' :: digits) = fractionCount digits := by
      rw [fractionCount, afterPoint, List.dropWhile_cons_of_pos (by decide)]
      rfl
    rw [assignString_minus h, hcount, hfraction]
    split
    · exact hunsigned h
    · exact hunsigned h

theorem digitCount_pos {cs : List Char} (h : IsDecimal cs) : 0 < digitCount cs := by
  have hany : cs.any Char.isDigit = true := by
    cases h with
    | unsigned h => exact h.any_isDigit
    | plus h => rw [List.any_cons, h.any_isDigit, Bool.or_true]
    | minus h => rw [List.any_cons, h.any_isDigit, Bool.or_true]
  rw [digitCount, List.countP_pos_iff]
  exact List.any_eq_true.mp hany

/-- What is stored and what is passed to the driver describe every digit. -/
def SizesDescribe (v : SqlNumeric) (digits fraction : ℕ) : Prop :=
  v.precision.toNat = digits ∧ v.scale.toInt = fraction ∧
    digits ≤ v.columnSize ∧ (fraction : ℤ) ≤ v.decimalDigits

theorem sizesDescribe_iff {v : SqlNumeric} {digits fraction : ℕ}
    (hprecision : v.precision = .ofNat digits) (hscale : v.scale = .ofInt fraction)
    (hpos : 0 < digits) : v.SizesDescribe digits fraction ↔ digits < 256 ∧ fraction < 128 := by
  constructor
  · rintro ⟨hdigits, hfraction, -, -⟩
    have hlt := v.precision.toNat_lt
    have hlt' := v.scale.toInt_lt
    omega
  · rintro ⟨hdigits, hfraction⟩
    have hprecision : v.precision.toNat = digits := by
      rw [hprecision]
      exact UInt8.toNat_ofNat_of_lt' hdigits
    have hscale : v.scale.toInt = fraction := by
      rw [hscale]
      exact Int8.toInt_ofInt_of_le (by omega) (by omega)
    have hsize : v.columnSize = digits := by
      rw [columnSize, if_pos, hprecision]
      rw [gt_iff_lt, UInt8.lt_iff_toNat_lt, hprecision]
      exact hpos
    have hdecimal : v.decimalDigits = fraction := by
      rw [decimalDigits, if_pos, hscale]
      rw [ge_iff_le, Int8.le_iff_toInt_le, hscale]
      exact Int.natCast_nonneg _
    exact ⟨hprecision, hscale, hsize.ge, hdecimal.ge⟩

/-- The sizes of a decimal string describe it with less than `256` digits, and less than `128`
of them after the point. -/
theorem sizes_describe_iff {cs : List Char} (h : IsDecimal (trim cs)) :
    (assignString cs).SizesDescribe (digitCount (trim cs)) (fractionCount (trim cs)) ↔
      digitCount (trim cs) < 256 ∧ fractionCount (trim cs) < 128 := by
  obtain ⟨hprecision, hscale⟩ := assignString_sizes h
  rw [assignString_trim] at hprecision hscale
  exact sizesDescribe_iff hprecision hscale (digitCount_pos h)

theorem sizes_describe_at :
    (assignString "-12.50".toList).SizesDescribe (digitCount (trim "-12.50".toList))
        (fractionCount (trim "-12.50".toList)) ↔
      digitCount (trim "-12.50".toList) < 256 ∧ fractionCount (trim "-12.50".toList) < 128 :=
  sizes_describe_iff
    (.minus (@IsUnsigned.point ['1', '2'] ['5', '0'] (by decide) (List.all_eq_true.mp rfl)
      (List.all_eq_true.mp rfl)))

/-- A numeral of `256` digits has no precision left, and is passed with `28`. -/
theorem not_sizesDescribe_ones :
    ¬ (assignString (List.replicate 256 '1')).SizesDescribe
      (digitCount (List.replicate 256 '1')) (fractionCount (List.replicate 256 '1')) := by
  have hdecimal : IsDecimal (List.replicate 256 '1') := by
    refine .unsigned (.whole (mt (List.replicate_eq_nil_iff _).mp (by decide)) fun c hc => ?_)
    rw [List.eq_of_mem_replicate hc]
    rfl
  obtain ⟨hprecision, hscale⟩ := assignString_sizes hdecimal
  have hcount : digitCount (List.replicate 256 '1') = 256 := by
    rw [digitCount, List.countP_replicate]
    rfl
  rw [sizesDescribe_iff hprecision hscale (digitCount_pos hdecimal), hcount]
  exact fun h => absurd h.1 (by decide)

end SqlNumeric

end CppLinq
