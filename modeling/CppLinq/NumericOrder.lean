import CppLinq.DigitStrings
import CppLinq.NumericText

/-!
# Comparing decimal numerals

`operator<=>` and `operator==` of `SqlNumeric`. Zeros are compared by themselves, then signs,
then magnitudes digit by digit. Between numerals, with any sign, any number of digits, with zeros
at both ends or blanks around them, the result is the order of the numbers they denote.
-/

namespace CppLinq

/-! ## The parts of a numeral -/

/-- What stands before the first point. -/
def beforePoint (cs : List Char) : List Char :=
  cs.takeWhile (· ≠ '.')

/-- What stands after the first point. -/
def afterPoint (cs : List Char) : List Char :=
  (cs.dropWhile (· ≠ '.')).tail

/-- A text without its sign. -/
def withoutSign (cs : List Char) : List Char :=
  if cs.head? = some '-' ∨ cs.head? = some '+' then cs.tail else cs

/-- The digits before the point, without zeros at the beginning. -/
def wholeDigits (cs : List Char) : List Char :=
  let digits := stripZeros (beforePoint cs)
  if digits.isEmpty then ['0'] else digits

/-- The digits after the point, without zeros at the end. -/
def fractionDigits (cs : List Char) : List Char :=
  (afterPoint cs).rdropWhile (· = '0')

/-- The order of `std::string_view`. -/
def byteKey (c : Char) : ℤ :=
  c.toNat

/-- The order of `char`, which has a sign. -/
def charKey (c : Char) : ℤ :=
  if c.toNat < 128 then c.toNat else (c.toNat : ℤ) - 256

namespace SqlNumeric

/-- `is_zero`. -/
def isZero (v : SqlNumeric) : Bool :=
  allZero v.value.toList

/-- `SqlNumeric::compare_magnitudes`. -/
def compareMagnitudes (v w : SqlNumeric) : Ordering :=
  let v₁ := withoutSign v.value.toList
  let v₂ := withoutSign w.value.toList
  let int₁ := wholeDigits v₁
  let int₂ := wholeDigits v₂
  if int₁.length ≠ int₂.length then compare int₁.length int₂.length
  else if int₁ ≠ int₂ then compareText byteKey int₁ int₂
  else compareText charKey (fractionDigits v₁) (fractionDigits v₂)

/-- `SqlNumeric::operator<=>`. -/
def cmp (v w : SqlNumeric) : Ordering :=
  if v.isZero && w.isZero then .eq
  else if v.isZero then if w.isNegative then .gt else .lt
  else if w.isZero then if v.isNegative then .lt else .gt
  else if v.isNegative ≠ w.isNegative then if v.isNegative then .lt else .gt
  else if v.isNegative then (v.compareMagnitudes w).swap
  else v.compareMagnitudes w

/-- `SqlNumeric::operator==`. -/
def equals (v w : SqlNumeric) : Bool :=
  v.cmp w = .eq

end SqlNumeric

/-! ## The number of a numeral -/

/-- The number of digits with a point among them or not. -/
def unsignedValue (cs : List Char) : ℚ :=
  digitsValue (beforePoint cs) + digitsValue (afterPoint cs) / 10 ^ (afterPoint cs).length

/-- The number of a numeral. -/
def decimalValue : List Char → ℚ
  | '-' :: cs => -unsignedValue cs
  | '+' :: cs => unsignedValue cs
  | cs => unsignedValue cs

theorem ne_point_of_isDigit {digits : List Char} (h : AllDigits digits) :
    ∀ c ∈ digits, decide (c ≠ '.') = true := by
  intro c hc
  rw [decide_eq_true_eq]
  rintro rfl
  exact absurd (h _ hc) (by decide)

/-- A point splits a decimal into its parts. -/
theorem parts_point {whole : List Char} (h : AllDigits whole) (fraction : List Char) :
    beforePoint (whole ++ '.' :: fraction) = whole ∧
      afterPoint (whole ++ '.' :: fraction) = fraction := by
  rw [beforePoint, afterPoint, List.takeWhile_append_of_pos (ne_point_of_isDigit h),
    List.dropWhile_append_of_pos (ne_point_of_isDigit h)]
  simp

theorem parts_whole {digits : List Char} (h : AllDigits digits) :
    beforePoint digits = digits ∧ afterPoint digits = [] := by
  rw [beforePoint, afterPoint, List.takeWhile_eq_self_iff.mpr (ne_point_of_isDigit h),
    List.dropWhile_eq_nil_iff.mpr (ne_point_of_isDigit h)]
  exact ⟨rfl, rfl⟩

theorem idxOf?_whole {digits : List Char} (h : AllDigits digits) :
    digits.idxOf? '.' = none :=
  List.idxOf?_eq_none_iff.mpr fun hmem => absurd (h _ hmem) (by decide)

theorem idxOf?_point {whole : List Char} (h : AllDigits whole) (fraction : List Char) :
    (whole ++ '.' :: fraction).idxOf? '.' = some whole.length := by
  rw [List.idxOf?_eq_some_iff]
  refine ⟨by simp, by simp, fun j hj => ?_⟩
  rw [List.getElem_append_left hj]
  intro heq
  have hdigit := h _ (List.getElem_mem hj)
  rw [heq] at hdigit
  exact absurd hdigit (by decide)

/-- Digits around a point, or without one. -/
theorem IsUnsigned.parts {cs : List Char} (h : IsUnsigned cs) :
    AllDigits (beforePoint cs) ∧ AllDigits (afterPoint cs) ∧
      (cs = beforePoint cs ∧ afterPoint cs = [] ∨ cs = beforePoint cs ++ '.' :: afterPoint cs) := by
  cases h with
  | whole hne h =>
    obtain ⟨hbefore, hafter⟩ := parts_whole h
    rw [hbefore, hafter]
    exact ⟨h, (fun _ hc => nomatch hc), .inl ⟨rfl, rfl⟩⟩
  | @point whole fraction hne hwhole hfraction =>
    obtain ⟨hbefore, hafter⟩ := parts_point hwhole fraction
    rw [hbefore, hafter]
    exact ⟨hwhole, hfraction, .inr rfl⟩

/-- A value is that of its whole part and its fraction. -/
theorem unsignedValue_eq (cs : List Char) :
    unsignedValue cs = digitsValue (beforePoint cs) + fractionValue (afterPoint cs) := by
  rw [unsignedValue, fractionValue_eq]

theorem unsignedValue_nonneg (cs : List Char) : 0 ≤ unsignedValue cs := by
  rw [unsignedValue]
  positivity

theorem decimalValue_unsigned {cs : List Char} (h : IsUnsigned cs) :
    decimalValue cs = unsignedValue cs := by
  obtain ⟨hminus, hplus⟩ := h.head?_ne
  rw [decimalValue]
  · rintro cs rfl
    exact hminus rfl
  · rintro cs rfl
    exact hplus rfl

theorem withoutSign_unsigned {cs : List Char} (h : IsUnsigned cs) : withoutSign cs = cs := by
  obtain ⟨hminus, hplus⟩ := h.head?_ne
  rw [withoutSign, if_neg]
  rintro (h | h)
  · exact hminus h
  · exact hplus h

/-- Digits are all zero where they denote zero. -/
theorem digitsValue_eq_zero_iff {cs : List Char} (h : AllDigits cs) :
    digitsValue cs = 0 ↔ ∀ c ∈ cs, c = '0' := by
  induction cs with
  | nil => simp [digitsValue_nil]
  | cons c cs ih =>
    have hpow : 10 ^ cs.length ≠ 0 := by positivity
    rw [digitsValue_cons, Nat.add_eq_zero_iff, ih fun d hd => h d (List.mem_cons_of_mem _ hd),
      List.forall_mem_cons, Nat.mul_eq_zero, digitVal_eq_zero (h c List.mem_cons_self)]
    simp only [hpow, or_false]

/-- A fraction is zero exactly if it is written in zeros. -/
theorem fractionValue_eq_zero_iff {cs : List Char} (h : AllDigits cs) :
    fractionValue cs = 0 ↔ ∀ c ∈ cs, c = '0' := by
  rw [fractionValue_eq, div_eq_zero_iff, ← digitsValue_eq_zero_iff h]
  have hpow : (10 : ℚ) ^ cs.length ≠ 0 := by positivity
  simp [hpow]

/-- `is_zero` tells the zeros. -/
theorem allZero_iff {cs : List Char} (h : IsUnsigned cs) :
    allZero cs = true ↔ unsignedValue cs = 0 := by
  obtain ⟨hbefore, hafter, hparts⟩ := h.parts
  have hzeros : ∀ {digits}, AllDigits digits → (allZero digits = true ↔ ∀ c ∈ digits, c = '0') := by
    intro digits hdigits
    rw [allZero, List.all_eq_true]
    refine forall₂_congr fun c hc => ?_
    simp [hdigits c hc]
  have hsum : unsignedValue cs = 0 ↔
      digitsValue (beforePoint cs) = 0 ∧ fractionValue (afterPoint cs) = 0 := by
    rw [unsignedValue_eq, add_eq_zero_iff_of_nonneg (Nat.cast_nonneg _) (fractionValue_nonneg _),
      Nat.cast_eq_zero]
  rw [hsum, digitsValue_eq_zero_iff hbefore, fractionValue_eq_zero_iff hafter]
  have happend : allZero cs = (allZero (beforePoint cs) && allZero (afterPoint cs)) := by
    rcases hparts with ⟨heq, hnil⟩ | heq
    · conv_lhs => rw [heq]
      rw [hnil]
      simp [allZero]
    · conv_lhs => rw [heq]
      simp [allZero]
  rw [happend, Bool.and_eq_true, hzeros hbefore, hzeros hafter]

/-! ## Magnitudes -/

/-- Bytes order the digits, and so do characters. -/
theorem ordersDigits_byteKey : OrdersDigits byteKey :=
  fun _ _ => rfl

theorem ordersDigits_charKey : OrdersDigits charKey := by
  intro c hc
  have hle := (toNat_of_isDigit hc).2
  rw [charKey, if_pos (by omega)]

/-- The digits before a point, as they are compared. -/
theorem wholeDigits_spec {cs : List Char} (h : AllDigits (beforePoint cs)) :
    AllDigits (wholeDigits cs) ∧ IsCanonical (wholeDigits cs) ∧ wholeDigits cs ≠ [] ∧
      digitsValue (wholeDigits cs) = digitsValue (beforePoint cs) := by
  rw [wholeDigits]
  split
  · rename_i hempty
    have hzero : digitsValue (beforePoint cs) = 0 := by
      rw [← digitsValue_stripZeros, List.isEmpty_iff.mp hempty, digitsValue_nil]
    rw [hzero]
    exact ⟨List.all_eq_true.mp rfl, fun hlt => absurd hlt (by decide), List.cons_ne_nil _ _, rfl⟩
  · rename_i hempty
    exact ⟨allDigits_stripZeros h, isCanonical_stripZeros h, mt List.isEmpty_iff.mpr hempty,
      digitsValue_stripZeros _⟩

/-- Dropped zeros do not count. -/
theorem fractionValue_rdropWhile (cs : List Char) :
    fractionValue (cs.rdropWhile (· = '0')) = fractionValue cs := by
  induction cs using List.reverseRecOn with
  | nil => rfl
  | append_singleton cs c ih =>
    by_cases hc : c = '0'
    · subst hc
      rw [List.rdropWhile_concat_pos _ _ _ (by decide), ih]
      exact (fractionValue_append_zeros cs 1).symm
    · rw [List.rdropWhile_concat_neg _ _ _ (by simpa using hc)]

/-- Zeros at the end of a fraction do not change it. -/
theorem fractionDigits_spec {cs : List Char} (h : AllDigits (afterPoint cs)) :
    AllDigits (fractionDigits cs) ∧ (fractionDigits cs).getLast? ≠ some '0' ∧
      fractionValue (fractionDigits cs) = fractionValue (afterPoint cs) := by
  refine ⟨fun c hc => h c (( List.rdropWhile_prefix _ _).mem hc), fun hlast => ?_,
    fractionValue_rdropWhile _⟩
  have hne : fractionDigits cs ≠ [] := by
    intro hnil
    rw [hnil] at hlast
    contradiction
  have hnot := List.rdropWhile_last_not (· = '0') (afterPoint cs) hne
  rw [List.getLast?_eq_getLast_of_ne_nil hne] at hlast
  exact hnot (by simpa [fractionDigits] using Option.some.inj hlast)

/-- Different whole parts decide. -/
theorem add_fraction_lt {m n : ℕ} {cs ds : List Char} (h : m < n) (hcs : AllDigits cs) :
    (m : ℚ) + fractionValue cs < n + fractionValue ds := by
  have hlt := fractionValue_lt_one hcs
  have hnonneg := fractionValue_nonneg ds
  have hstep : (m : ℚ) + 1 ≤ n := by exact_mod_cast h
  linarith

theorem compare_add_left (x y z : ℚ) : compare (x + y) (x + z) = compare y z :=
  compare_of_lt_iff (add_lt_add_iff_left x) (add_lt_add_iff_left x)

theorem compare_neg (x y : ℚ) : compare (-x) (-y) = compare y x :=
  compare_of_lt_iff neg_lt_neg_iff neg_lt_neg_iff

theorem eq_of_compareText_byteKey {as bs : List Char} (h : compareText byteKey as bs = .eq) :
    as = bs := by
  induction as generalizing bs with
  | nil =>
    cases bs with
    | nil => rfl
    | cons b bs => contradiction
  | cons a as ih =>
    cases bs with
    | nil => contradiction
    | cons b bs =>
      rw [compareText, Ordering.then_eq_eq, compare_eq_iff_eq] at h
      have hcode : a.toNat = b.toNat := Int.ofNat_inj.mp h.1
      rw [Char.ext (UInt32.toNat_inj.mp hcode), ih h.2]

namespace SqlNumeric

/-- Magnitudes are compared as numbers. -/
theorem compareMagnitudes_eq {v w : SqlNumeric} (hv : IsUnsigned (withoutSign v.value.toList))
    (hw : IsUnsigned (withoutSign w.value.toList)) :
    v.compareMagnitudes w = compare (unsignedValue (withoutSign v.value.toList))
      (unsignedValue (withoutSign w.value.toList)) := by
  rw [compareMagnitudes]
  generalize withoutSign v.value.toList = cs at hv ⊢
  generalize withoutSign w.value.toList = ds at hw ⊢
  obtain ⟨hbefore₁, hafter₁, -⟩ := hv.parts
  obtain ⟨hbefore₂, hafter₂, -⟩ := hw.parts
  obtain ⟨hdigits₁, hcanonical₁, hne₁, hwhole₁⟩ := wholeDigits_spec hbefore₁
  obtain ⟨hdigits₂, hcanonical₂, hne₂, hwhole₂⟩ := wholeDigits_spec hbefore₂
  obtain ⟨hfraction₁, hlast₁, hvalue₁⟩ := fractionDigits_spec hafter₁
  obtain ⟨hfraction₂, hlast₂, hvalue₂⟩ := fractionDigits_spec hafter₂
  rw [unsignedValue_eq, unsignedValue_eq, ← hwhole₁, ← hwhole₂]
  split_ifs with hlength heq
  · rcases Nat.lt_or_gt_of_ne hlength with hlt | hgt
    · rw [compare_lt_iff_lt.mpr hlt, eq_comm, compare_lt_iff_lt]
      exact add_fraction_lt (digitsValue_lt_of_length_lt hdigits₁ hcanonical₂ hne₁ hlt) hafter₁
    · rw [compare_gt_iff_gt.mpr hgt, eq_comm, compare_gt_iff_gt]
      exact add_fraction_lt (digitsValue_lt_of_length_lt hdigits₂ hcanonical₁ hne₂ hgt) hafter₂
  · have hcompare := compareText_of_length_eq ordersDigits_byteKey hdigits₁ hdigits₂
      (not_not.mp hlength)
    rcases Nat.lt_trichotomy (digitsValue (wholeDigits cs)) (digitsValue (wholeDigits ds)) with
      hlt | hequal | hgt
    · rw [hcompare, compare_lt_iff_lt.mpr hlt, eq_comm, compare_lt_iff_lt]
      exact add_fraction_lt hlt hafter₁
    · rw [compare_eq_iff_eq.mpr hequal] at hcompare
      exact absurd (eq_of_compareText_byteKey hcompare) heq
    · rw [hcompare, compare_gt_iff_gt.mpr hgt, eq_comm, compare_gt_iff_gt]
      exact add_fraction_lt hgt hafter₂
  · rw [not_not.mp heq, compareText_eq_compare ordersDigits_charKey hfraction₁ hfraction₂
      (.inr ⟨hlast₁, hlast₂⟩), hvalue₁, hvalue₂]
    exact (compare_add_left _ _ _).symm

end SqlNumeric

/-! ## Numerals that are kept -/

/-- Digits with a minus sign or without. -/
def IsNumeral (cs : List Char) : Prop :=
  IsUnsigned cs ∨ ∃ digits, cs = '-' :: digits ∧ IsUnsigned digits

/-- A decimal : its text is a numeral, and its flag the sign of the number. -/
structure SqlNumeric.HoldsDecimal (v : SqlNumeric) : Prop where
  numeral : IsNumeral v.value.toList
  sign : v.isNegative = true ↔ decimalValue v.value.toList < 0

/-- The number of a decimal. -/
def SqlNumeric.number (v : SqlNumeric) : ℚ :=
  decimalValue v.value.toList

theorem decimalValue_minus (cs : List Char) : decimalValue ('-' :: cs) = -unsignedValue cs :=
  rfl

/-- The magnitude of a numeral. -/
theorem IsNumeral.abs {cs : List Char} (h : IsNumeral cs) :
    IsUnsigned (withoutSign cs) ∧ |decimalValue cs| = unsignedValue (withoutSign cs) ∧
      (allZero cs = true ↔ decimalValue cs = 0) := by
  rcases h with h | ⟨digits, rfl, h⟩
  · rw [withoutSign_unsigned h, decimalValue_unsigned h, abs_of_nonneg (unsignedValue_nonneg cs)]
    exact ⟨h, rfl, allZero_iff h⟩
  · have hsign : withoutSign ('-' :: digits) = digits := rfl
    rw [hsign, decimalValue_minus, abs_neg, abs_of_nonneg (unsignedValue_nonneg digits),
      SqlNumeric.allZero_minus, neg_eq_zero]
    exact ⟨h, rfl, allZero_iff h⟩

namespace SqlNumeric

/-- Decimals are compared as numbers. -/
theorem cmp_eq {v w : SqlNumeric} (hv : v.HoldsDecimal) (hw : w.HoldsDecimal) :
    v.cmp w = compare v.number w.number := by
  obtain ⟨hunsigned₁, habs₁, hzero₁⟩ := hv.numeral.abs
  obtain ⟨hunsigned₂, habs₂, hzero₂⟩ := hw.numeral.abs
  have hmagnitudes := compareMagnitudes_eq hunsigned₁ hunsigned₂
  have hsign₁ := hv.sign
  have hsign₂ := hw.sign
  rw [← habs₁, ← habs₂] at hmagnitudes
  rw [cmp, hmagnitudes, number, number, isZero, isZero]
  generalize decimalValue v.value.toList = x at hzero₁ hsign₁ ⊢
  generalize decimalValue w.value.toList = y at hzero₂ hsign₂ ⊢
  generalize v.isNegative = negative₁ at hsign₁ ⊢
  generalize w.isNegative = negative₂ at hsign₂ ⊢
  simp only [Bool.and_eq_true, hzero₁, hzero₂]
  split_ifs with hboth hx hneg hy hneg hdiffer hneg hneg
  · rw [hboth.1, hboth.2, eq_comm, compare_eq_iff_eq]
  · rw [eq_comm, compare_gt_iff_gt, hx]
    exact hsign₂.mp hneg
  · rw [eq_comm, compare_lt_iff_lt, hx]
    exact lt_of_le_of_ne (not_lt.mp (mt hsign₂.mpr hneg)) fun hy => hboth ⟨hx, hy.symm⟩
  · rw [eq_comm, compare_lt_iff_lt, hy]
    exact hsign₁.mp hneg
  · rw [eq_comm, compare_gt_iff_gt, hy]
    exact lt_of_le_of_ne (not_lt.mp (mt hsign₁.mpr hneg)) fun hx => hboth ⟨hx.symm, hy⟩
  · have hpos : 0 ≤ y := not_lt.mp (mt hsign₂.mpr fun h => hdiffer (hneg.trans h.symm))
    rw [eq_comm, compare_lt_iff_lt]
    exact lt_of_lt_of_le (hsign₁.mp hneg) hpos
  · have hpos : 0 ≤ x := not_lt.mp (mt hsign₁.mpr hneg)
    have hlt : y < 0 := hsign₂.mp (by
      cases negative₂ with
      | true => rfl
      | false => exact absurd (Bool.eq_false_iff.mpr hneg) hdiffer)
    rw [eq_comm, compare_gt_iff_gt]
    exact lt_of_lt_of_le hlt hpos
  · have hlt₁ : x < 0 := hsign₁.mp hneg
    have hlt₂ : y < 0 := hsign₂.mp ((not_not.mp hdiffer).symm.trans hneg)
    rw [abs_of_neg hlt₁, abs_of_neg hlt₂, compare_neg]
    exact Std.OrientedCmp.eq_swap.symm
  · have hpos₁ : 0 ≤ x := not_lt.mp (mt hsign₁.mpr hneg)
    have hpos₂ : 0 ≤ y :=
      not_lt.mp (mt hsign₂.mpr fun h => hneg ((not_not.mp hdiffer).trans h))
    rw [abs_of_nonneg hpos₁, abs_of_nonneg hpos₂]

/-- Decimals are equal exactly if their numbers are. -/
theorem equals_iff {v w : SqlNumeric} (hv : v.HoldsDecimal) (hw : w.HoldsDecimal) :
    v.equals w = true ↔ v.number = w.number := by
  rw [equals, decide_eq_true_eq, cmp_eq hv hw, compare_eq_iff_eq]

/-! ## Numerals that are given -/

theorem trim_trim (cs : List Char) : trim (trim cs) = trim cs := by
  have hfront : (trim cs).dropWhile isSpace = trim cs := by
    rw [List.dropWhile_eq_self_iff]
    intro hpos
    have hpre : trim cs <+: cs.dropWhile isSpace := List.rdropWhile_prefix _ _
    have hdrop := List.dropWhile_eq_self_iff.mp
      (List.dropWhile_idempotent isSpace cs) (Nat.lt_of_lt_of_le hpos hpre.length_le)
    rwa [hpre.getElem hpos]
  conv_lhs => rw [trim, hfront]
  exact List.rdropWhile_idempotent isSpace _

/-- Blanks around a numeral are dropped. -/
theorem assignString_trim (cs : List Char) : assignString (trim cs) = assignString cs := by
  rw [assignString, assignString, trim_trim]

/-- A numeral is kept with its number. -/
theorem assignString_decimal {cs : List Char} (h : IsDecimal cs) :
    (assignString cs).HoldsDecimal ∧ (assignString cs).number = decimalValue cs := by
  have hkept : ∀ {digits : List Char}, IsUnsigned digits →
      (assignString digits).HoldsDecimal ∧
        (assignString digits).number = unsignedValue digits := by
    intro digits hdigits
    have hvalue : (assignString digits).value.toList = digits := by
      rw [assignString_unsigned hdigits, String.toList_ofList]
    have hflag : (assignString digits).isNegative = false := by
      rw [assignString_unsigned hdigits]
    refine ⟨⟨?_, ?_⟩, ?_⟩
    · rw [hvalue]
      exact .inl hdigits
    · rw [hvalue, hflag, decimalValue_unsigned hdigits]
      exact ⟨(fun h => nomatch h), fun h => absurd h (not_lt.mpr (unsignedValue_nonneg digits))⟩
    · rw [number, hvalue, decimalValue_unsigned hdigits]
  cases h with
  | unsigned h =>
    rw [decimalValue_unsigned h]
    exact hkept h
  | @plus digits h =>
    rw [assignString_plus h]
    exact hkept h
  | @minus digits h =>
    rw [assignString_minus h, decimalValue_minus]
    split
    · rename_i hzero
      obtain ⟨hholds, hnumber⟩ := hkept h
      have hvalue := (allZero_iff h).mp hzero
      exact ⟨hholds, by rw [hnumber, hvalue, neg_zero]⟩
    · rename_i hzero
      have hvalue : 0 < unsignedValue digits :=
        lt_of_le_of_ne (unsignedValue_nonneg digits) fun h' => hzero ((allZero_iff h).mpr h'.symm)
      refine ⟨⟨?_, ?_⟩, ?_⟩
      · rw [String.toList_ofList]
        exact .inr ⟨digits, rfl, h⟩
      · rw [String.toList_ofList, decimalValue_minus]
        exact ⟨fun _ => neg_neg_of_pos hvalue, fun _ => rfl⟩
      · rw [number, String.toList_ofList, decimalValue_minus]

/-- The same with blanks around it. -/
theorem assignString_of_trim {cs : List Char} (h : IsDecimal (trim cs)) :
    (assignString cs).HoldsDecimal ∧ (assignString cs).number = decimalValue (trim cs) := by
  rw [← assignString_trim]
  exact assignString_decimal h

/-- More zeros after the point are the same number. -/
theorem unsignedValue_append_zeros {cs : List Char} (h : IsUnsigned cs) (hpoint : '.' ∈ cs)
    (n : ℕ) : IsUnsigned (cs ++ List.replicate n '0') ∧
      unsignedValue (cs ++ List.replicate n '0') = unsignedValue cs := by
  cases h with
  | whole hne h => exact absurd (h _ hpoint) (by decide)
  | @point whole fraction hne hwhole hfraction =>
    have hzeros : AllDigits (fraction ++ List.replicate n '0') := by
      intro c hc
      rcases List.mem_append.mp hc with hc | hc
      · exact hfraction c hc
      · rw [List.eq_of_mem_replicate hc]
        rfl
    have hne' : whole ++ (fraction ++ List.replicate n '0') ≠ [] := by
      rw [← List.append_assoc]
      exact List.append_ne_nil_of_left_ne_nil hne _
    obtain ⟨hbefore, hafter⟩ := parts_point hwhole fraction
    obtain ⟨hbefore', hafter'⟩ := parts_point hwhole (fraction ++ List.replicate n '0')
    rw [List.append_assoc, List.cons_append, unsignedValue_eq, unsignedValue_eq, hbefore, hafter,
      hbefore', hafter', fractionValue_append_zeros]
    exact ⟨.point hne' hwhole hzeros, rfl⟩

/-- Zeros behind a point do not change a decimal. -/
theorem decimalValue_append_zeros {cs : List Char} (h : IsDecimal cs) (hpoint : '.' ∈ cs)
    (n : ℕ) : IsDecimal (cs ++ List.replicate n '0') ∧
      decimalValue (cs ++ List.replicate n '0') = decimalValue cs := by
  cases h with
  | unsigned h =>
    obtain ⟨hzeros, hvalue⟩ := unsignedValue_append_zeros h hpoint n
    rw [decimalValue_unsigned h, decimalValue_unsigned hzeros]
    exact ⟨.unsigned hzeros, hvalue⟩
  | @plus digits h =>
    obtain ⟨hzeros, hvalue⟩ := unsignedValue_append_zeros h
      ((List.mem_cons.mp hpoint).resolve_left (by decide)) n
    exact ⟨.plus hzeros, hvalue⟩
  | @minus digits h =>
    obtain ⟨hzeros, hvalue⟩ := unsignedValue_append_zeros h
      ((List.mem_cons.mp hpoint).resolve_left (by decide)) n
    exact ⟨.minus hzeros, congrArg (- ·) hvalue⟩

/-- Between decimal strings, comparison is the order of the numbers they denote : a total
preorder in which blanks and zeros at the end of a fraction do not count. -/
theorem cmp_exact {a b c : List Char} (ha : IsDecimal (trim a)) (hb : IsDecimal (trim b))
    (hc : IsDecimal (trim c)) :
    (assignString a).cmp (assignString b) =
        compare (decimalValue (trim a)) (decimalValue (trim b)) ∧
      ((assignString a).equals (assignString b) = true ↔
        decimalValue (trim a) = decimalValue (trim b)) ∧
      (assignString b).cmp (assignString a) = ((assignString a).cmp (assignString b)).swap ∧
      (((assignString a).cmp (assignString b)).isLE = true →
        ((assignString b).cmp (assignString c)).isLE = true →
        ((assignString a).cmp (assignString c)).isLE = true) ∧
      ('.' ∈ trim a → ∀ n,
        (assignString (trim a ++ List.replicate n '0')).equals (assignString a) = true) ∧
      (assignString "-0.00".toList).equals (assignString "0".toList) = true := by
  obtain ⟨hholds₁, hnumber₁⟩ := assignString_of_trim ha
  obtain ⟨hholds₂, hnumber₂⟩ := assignString_of_trim hb
  obtain ⟨hholds₃, hnumber₃⟩ := assignString_of_trim hc
  rw [← hnumber₁, ← hnumber₂, cmp_eq hholds₁ hholds₂, cmp_eq hholds₂ hholds₁,
    cmp_eq hholds₂ hholds₃, cmp_eq hholds₁ hholds₃]
  refine ⟨rfl, equals_iff hholds₁ hholds₂, Std.OrientedCmp.eq_swap, Std.TransCmp.isLE_trans,
    fun hpoint n => ?_, by decide⟩
  obtain ⟨hzeros, hvalue⟩ := decimalValue_append_zeros ha hpoint n
  obtain ⟨hholds₄, hnumber₄⟩ := assignString_decimal hzeros
  rw [equals_iff hholds₄ hholds₁, hnumber₄, hvalue, hnumber₁]

theorem cmp_exact_at :
    let a := " -12.5\n".toList
    let b := ".5".toList
    let c := "5.".toList
    (assignString a).cmp (assignString b) =
        compare (decimalValue (trim a)) (decimalValue (trim b)) ∧
      ((assignString a).equals (assignString b) = true ↔
        decimalValue (trim a) = decimalValue (trim b)) ∧
      (assignString b).cmp (assignString a) = ((assignString a).cmp (assignString b)).swap ∧
      (((assignString a).cmp (assignString b)).isLE = true →
        ((assignString b).cmp (assignString c)).isLE = true →
        ((assignString a).cmp (assignString c)).isLE = true) ∧
      ('.' ∈ trim a → ∀ n,
        (assignString (trim a ++ List.replicate n '0')).equals (assignString a) = true) ∧
      (assignString "-0.00".toList).equals (assignString "0".toList) = true :=
  cmp_exact (.minus (@IsUnsigned.point ['1', '2'] ['5'] (by decide) (List.all_eq_true.mp rfl)
      (List.all_eq_true.mp rfl)))
    (.unsigned (@IsUnsigned.point [] ['5'] (by decide) (List.all_eq_true.mp rfl)
      (List.all_eq_true.mp rfl)))
    (.unsigned (@IsUnsigned.point ['5'] [] (by decide) (List.all_eq_true.mp rfl)
      (List.all_eq_true.mp rfl)))

end SqlNumeric

end CppLinq
