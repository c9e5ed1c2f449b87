import CppLinq.NumericOrder
import Mathlib.Data.Rat.Floor

/-!
# Decimals as integers

The integer constructors of `SqlNumeric`, `to_int64` and `to_uint64`. The text before the point
is parsed again, and a decimal is truncated where the result fits.
-/

namespace CppLinq

/-! ## Parsing -/

/-- The sign and the digits that `std::stoll` and `std::stoull` read. -/
def readWhole (cs : List Char) : Bool × List Char :=
  let cs := cs.dropWhile isSpace
  (cs.head? = some '-', (withoutSign cs).takeWhile Char.isDigit)

/-- `std::stoll`, which throws without digits and out of the range. -/
def stoll (cs : List Char) : Option Int64 :=
  let (isNegative, digits) := readWhole cs
  let z : ℤ := if isNegative then -digitsValue digits else digitsValue digits
  if digits.isEmpty ∨ ¬ (-2 ^ 63 ≤ z ∧ z < 2 ^ 63) then none else some (.ofInt z)

/-- `std::stoull`, which takes a sign and counts down from `2 ^ 64` for it. -/
def stoull (cs : List Char) : Option UInt64 :=
  let (isNegative, digits) := readWhole cs
  let n := digitsValue digits
  if digits.isEmpty ∨ ¬ n < 2 ^ 64 then none
  else some (if isNegative then -.ofNat n else .ofNat n)

namespace SqlNumeric

/-- `SqlNumeric(int64_t)`. -/
def ofInt64 (val : Int64) : SqlNumeric :=
  let isNegative : Bool := val < 0
  let mag := if isNegative then 0 - val.toUInt64 else val.toUInt64
  let value := (if isNegative then ['-'] else []) ++ decimal mag.toNat
  { value := .ofList value
    precision := .ofNat (value.length - if isNegative then 1 else 0)
    isNegative }

/-- `SqlNumeric(uint64_t)`. -/
def ofUInt64 (val : UInt64) : SqlNumeric where
  value := .ofList (decimal val.toNat)
  precision := .ofNat (decimal val.toNat).length

/-- `SqlNumeric::to_int64`. -/
def toInt64 (v : SqlNumeric) : Int64 :=
  (stoll (beforePoint v.value.toList)).getD 0

/-- `SqlNumeric::to_uint64`. -/
def toUInt64 (v : SqlNumeric) : UInt64 :=
  let intPart := beforePoint v.value.toList
  if intPart.head? = some '-' then 0 else (stoull intPart).getD 0

end SqlNumeric

/-! ## Truncation -/

/-- A number without its fraction. -/
def truncate (q : ℚ) : ℤ :=
  if q < 0 then ⌈q⌉ else ⌊q⌋

/-- The floor of a numeral is its whole part. -/
theorem floor_unsignedValue {cs : List Char} (h : IsUnsigned cs) :
    ⌊unsignedValue cs⌋ = (digitsValue (beforePoint cs) : ℤ) := by
  have hlt := fractionValue_lt_one h.parts.2.1
  have hnonneg := fractionValue_nonneg (afterPoint cs)
  rw [Int.floor_eq_iff, unsignedValue_eq]
  push_cast
  constructor
  · linarith
  · linarith

theorem truncate_unsigned {cs : List Char} (h : IsUnsigned cs) :
    truncate (unsignedValue cs) = digitsValue (beforePoint cs) := by
  rw [truncate, if_neg (not_lt.mpr (unsignedValue_nonneg cs)), floor_unsignedValue h]

theorem truncate_neg {cs : List Char} (h : IsUnsigned cs) :
    truncate (-unsignedValue cs) = -digitsValue (beforePoint cs) := by
  rw [truncate]
  split
  · rw [Int.ceil_neg, floor_unsignedValue h]
  · rename_i hnot
    have hzero : unsignedValue cs = 0 := by
      have hnonneg := unsignedValue_nonneg cs
      linarith
    rw [Int.floor_neg, hzero, Int.ceil_zero, ← floor_unsignedValue h, hzero, Int.floor_zero]

theorem beforePoint_minus (cs : List Char) : beforePoint ('-' :: cs) = '-' :: beforePoint cs :=
  List.takeWhile_cons_of_pos (by decide)

/-- What is read of digits. -/
theorem readWhole_digits {digits : List Char} (h : AllDigits digits) :
    readWhole digits = (false, digits) ∧ readWhole ('-' :: digits) = (true, digits) := by
  have htake : digits.takeWhile Char.isDigit = digits := List.takeWhile_eq_self_iff.mpr h
  have hhead : digits.head? ≠ some '-' ∧ digits.head? ≠ some '+' :=
    ⟨fun hhead => absurd (h _ (List.mem_of_head? hhead)) (by decide),
      fun hhead => absurd (h _ (List.mem_of_head? hhead)) (by decide)⟩
  have hsign : withoutSign digits = digits := by
    rw [withoutSign, if_neg]
    rintro (h | h)
    · exact hhead.1 h
    · exact hhead.2 h
  have hspace : digits.dropWhile isSpace = digits := by
    cases digits with
    | nil => rfl
    | cons c cs =>
      have hc := (of_isDigit (h c List.mem_cons_self)).1
      exact List.dropWhile_cons_of_neg (by rw [hc]; exact Bool.false_ne_true)
  have hminus : withoutSign ('-' :: digits) = digits := rfl
  constructor
  · simp only [readWhole, hspace, hsign, htake, hhead.1, decide_false]
  · have hdash : ('-' :: digits).dropWhile isSpace = '-' :: digits :=
      List.dropWhile_cons_of_neg (by decide)
    simp only [readWhole, hdash, hminus, htake, List.head?_cons, decide_true]

namespace SqlNumeric

theorem toInt_ofInt64_of_mem {z : ℤ} (h : -2 ^ 63 ≤ z ∧ z < 2 ^ 63) : (Int64.ofInt z).toInt = z :=
  Int64.toInt_ofInt_of_le h.1 h.2

/-- `to_int64` of a decimal is its truncation, where that fits. -/
theorem toInt64_eq {v : SqlNumeric} (hv : v.HoldsDecimal) :
    v.toInt64.toInt =
      if -2 ^ 63 ≤ truncate v.number ∧ truncate v.number < 2 ^ 63 then truncate v.number
      else 0 := by
  -- without digits before the point the number is zero
  have hread : ∀ {digits : List Char} {z : ℤ}, (digits = [] → z = 0) →
      ((if digits.isEmpty ∨ ¬ (-2 ^ 63 ≤ z ∧ z < 2 ^ 63) then none
        else some (Int64.ofInt z)).getD 0).toInt =
        if -2 ^ 63 ≤ z ∧ z < 2 ^ 63 then z else 0 := by
    intro digits z hzero
    by_cases hrange : -2 ^ 63 ≤ z ∧ z < 2 ^ 63
    · by_cases hempty : digits = []
      · rw [if_pos (.inl (List.isEmpty_iff.mpr hempty)), if_pos hrange, hzero hempty]
        rfl
      · rw [if_neg, if_pos hrange, Option.getD_some, toInt_ofInt64_of_mem hrange]
        rintro (h | h)
        · exact hempty (List.isEmpty_iff.mp h)
        · exact h hrange
    · rw [if_pos (.inr hrange), if_neg hrange]
      rfl
  rw [toInt64, number]
  rcases hv.numeral with h | ⟨cs, hcs, h⟩
  · have hdigits := h.parts.1
    rw [decimalValue_unsigned h, truncate_unsigned h, stoll, (readWhole_digits hdigits).1]
    refine hread fun hnil => ?_
    rw [hnil, digitsValue_nil]
    rfl
  · have hdigits := h.parts.1
    rw [hcs, decimalValue_minus, truncate_neg h, stoll, beforePoint_minus,
      (readWhole_digits hdigits).2]
    refine hread fun hnil => ?_
    rw [hnil, digitsValue_nil]
    rfl

/-- The same for `to_uint64`. -/
theorem toUInt64_eq {v : SqlNumeric} (hv : v.HoldsDecimal) :
    (v.toUInt64.toNat : ℤ) =
      if 0 ≤ truncate v.number ∧ truncate v.number < 2 ^ 64 then truncate v.number else 0 := by
  rw [toUInt64, number]
  rcases hv.numeral with h | ⟨cs, hcs, h⟩
  · have hdigits := h.parts.1
    have hhead : (beforePoint v.value.toList).head? ≠ some '-' :=
      fun hhead => absurd (hdigits _ (List.mem_of_head? hhead)) (by decide)
    rw [if_neg hhead, decimalValue_unsigned h, truncate_unsigned h, stoull,
      (readWhole_digits hdigits).1]
    by_cases hrange : digitsValue (beforePoint v.value.toList) < 2 ^ 64
    · rw [if_pos ⟨by omega, by exact_mod_cast hrange⟩]
      by_cases hempty : beforePoint v.value.toList = []
      · rw [hempty, digitsValue_nil]
        rfl
      · dsimp only
        rw [if_neg]
        · exact congrArg Nat.cast (UInt64.toNat_ofNat_of_lt' hrange)
        · rintro (h | h)
          · exact hempty (List.isEmpty_iff.mp h)
          · exact h hrange
    · dsimp only
      rw [if_pos (.inr hrange), if_neg]
      · rfl
      · rintro ⟨-, hlt⟩
        exact hrange (by exact_mod_cast hlt)
  · have hhead : (beforePoint ('-' :: cs)).head? = some '-' := by rw [beforePoint_minus]; rfl
    rw [hcs, if_pos hhead, decimalValue_minus, truncate_neg h]
    split
    · rename_i hle
      have hzero : digitsValue (beforePoint cs) = 0 := by omega
      rw [hzero]
      rfl
    · rfl

/-! ## Integers -/

theorem isUnsigned_decimal (n : ℕ) : IsUnsigned (decimal n) :=
  .whole Nat.toDigits_ne_nil fun _ => isDigit_of_mem_decimal

theorem digitsValue_decimal (n : ℕ) : digitsValue (decimal n) = n := by
  simpa [padded] using digitsValue_padded 0 n

theorem unsignedValue_decimal (n : ℕ) : unsignedValue (decimal n) = n := by
  obtain ⟨hbefore, hafter⟩ := parts_whole fun c => isDigit_of_mem_decimal (n := n) (c := c)
  rw [unsignedValue, hbefore, hafter, digitsValue_decimal, digitsValue_nil]
  simp

theorem truncate_intCast (z : ℤ) : truncate z = z := by
  rw [truncate, Int.ceil_intCast, Int.floor_intCast, ite_self]

/-- The magnitude of an integer, negated modulo `2 ^ 64`. -/
theorem toNat_magnitude (val : Int64) :
    (if val < 0 then 0 - val.toUInt64 else val.toUInt64).toNat = val.toInt.natAbs := by
  have hlt := val.toUInt64.toNat_lt
  have hint : val.toInt = if 2 * val.toUInt64.toNat < 2 ^ 64 then (val.toUInt64.toNat : ℤ)
      else (val.toUInt64.toNat : ℤ) - (2 ^ 64 : ℕ) :=
    BitVec.toInt_eq_toNat_cond val.toBitVec
  have hsign : val < 0 ↔ val.toInt < 0 := Int64.lt_iff_toInt_lt
  split
  · rename_i hneg
    have hneg := hsign.mp hneg
    rw [UInt64.toNat_sub]
    split at hint
    · omega
    · rw [UInt64.toNat_zero]
      omega
  · rename_i hneg
    have hneg := mt hsign.mpr hneg
    split at hint
    · omega
    · omega

/-- A number of 64 bits becomes itself, with or without a sign. -/
theorem ofInt64_number (val : Int64) :
    (ofInt64 val).HoldsDecimal ∧ (ofInt64 val).number = val.toInt := by
  have hmag := toNat_magnitude val
  have hsign : val < 0 ↔ val.toInt < 0 := Int64.lt_iff_toInt_lt
  have hunsigned := isUnsigned_decimal val.toInt.natAbs
  by_cases hneg : val < 0
  · rw [if_pos hneg] at hmag
    have hvalue : (ofInt64 val).value.toList = '-' :: decimal val.toInt.natAbs := by
      simp only [ofInt64, hneg, decide_true, if_true, hmag, String.toList_ofList,
        List.singleton_append]
    have hnumber : (ofInt64 val).number = val.toInt := by
      rw [number, hvalue, decimalValue_minus, unsignedValue_decimal]
      have hlt := hsign.mp hneg
      rw [Nat.cast_natAbs, abs_of_neg hlt]
      simp
    have hflag : (ofInt64 val).isNegative = true := decide_eq_true hneg
    refine ⟨⟨?_, ?_⟩, hnumber⟩
    · rw [hvalue]
      exact .inr ⟨_, rfl, hunsigned⟩
    · rw [← number, hnumber, hflag]
      exact ⟨fun _ => by exact_mod_cast hsign.mp hneg, fun _ => rfl⟩
  · rw [if_neg hneg] at hmag
    have hvalue : (ofInt64 val).value.toList = decimal val.toInt.natAbs := by
      simp [ofInt64, hneg, hmag]
    have hnonneg : 0 ≤ val.toInt := not_lt.mp (mt hsign.mpr hneg)
    have hnumber : (ofInt64 val).number = val.toInt := by
      rw [number, hvalue, decimalValue_unsigned hunsigned, unsignedValue_decimal, Nat.cast_natAbs,
        abs_of_nonneg hnonneg]
    have hflag : (ofInt64 val).isNegative = false := decide_eq_false hneg
    refine ⟨⟨?_, ?_⟩, hnumber⟩
    · rw [hvalue]
      exact .inl hunsigned
    · rw [← number, hnumber, hflag]
      exact ⟨fun h => absurd h Bool.false_ne_true,
        fun h => absurd h (not_lt.mpr (by exact_mod_cast hnonneg))⟩

theorem ofUInt64_number (val : UInt64) :
    (ofUInt64 val).HoldsDecimal ∧ (ofUInt64 val).number = val.toNat := by
  have hvalue : (ofUInt64 val).value.toList = decimal val.toNat := String.toList_ofList
  have hunsigned := isUnsigned_decimal val.toNat
  have hnumber : (ofUInt64 val).number = val.toNat := by
    rw [number, hvalue, decimalValue_unsigned hunsigned, unsignedValue_decimal]
  refine ⟨⟨by rw [hvalue]; exact .inl hunsigned, ?_⟩, hnumber⟩
  rw [← number, hnumber]
  exact ⟨fun h => absurd h Bool.false_ne_true, fun h => absurd h (not_lt.mpr (Nat.cast_nonneg _))⟩

/-- Integers come back, and decimal strings are truncated where the result fits. -/
theorem toInt_conversions :
    (∀ val : Int64, (ofInt64 val).toInt64 = val) ∧
    (∀ val : UInt64, (ofUInt64 val).toUInt64 = val) ∧
    ∀ cs, IsDecimal (trim cs) →
      (assignString cs).toInt64.toInt =
        (if -2 ^ 63 ≤ truncate (decimalValue (trim cs)) ∧
            truncate (decimalValue (trim cs)) < 2 ^ 63 then
          truncate (decimalValue (trim cs))
        else 0) ∧
      ((assignString cs).toUInt64.toNat : ℤ) =
        if 0 ≤ truncate (decimalValue (trim cs)) ∧
            truncate (decimalValue (trim cs)) < 2 ^ 64 then
          truncate (decimalValue (trim cs))
        else 0 := by
  refine ⟨fun val => ?_, fun val => ?_, fun cs h => ?_⟩
  · obtain ⟨hholds, hnumber⟩ := ofInt64_number val
    have hlt := val.toInt_lt
    have hle := val.le_toInt
    rw [← Int64.toInt_inj, toInt64_eq hholds, hnumber, truncate_intCast, if_pos ⟨hle, hlt⟩]
  · obtain ⟨hholds, hnumber⟩ := ofUInt64_number val
    have hlt := val.toNat_lt
    have hvalue : truncate (ofUInt64 val).number = val.toNat := by
      rw [hnumber]
      exact_mod_cast truncate_intCast val.toNat
    have h := toUInt64_eq hholds
    rw [hvalue, if_pos ⟨by omega, by exact_mod_cast hlt⟩] at h
    exact UInt64.toNat_inj.mp (by exact_mod_cast h)
  · obtain ⟨hholds, hnumber⟩ := assignString_of_trim h
    rw [← hnumber]
    exact ⟨toInt64_eq hholds, toUInt64_eq hholds⟩

theorem toInt_conversions_at :
    (ofInt64 (-9223372036854775808)).toInt64 = -9223372036854775808 ∧
    (ofUInt64 18446744073709551615).toUInt64 = 18446744073709551615 ∧
    (assignString "-.5".toList).toInt64.toInt =
        (if -2 ^ 63 ≤ truncate (decimalValue (trim "-.5".toList)) ∧
            truncate (decimalValue (trim "-.5".toList)) < 2 ^ 63 then
          truncate (decimalValue (trim "-.5".toList))
        else 0) ∧
      ((assignString "-.5".toList).toUInt64.toNat : ℤ) =
        if 0 ≤ truncate (decimalValue (trim "-.5".toList)) ∧
            truncate (decimalValue (trim "-.5".toList)) < 2 ^ 64 then
          truncate (decimalValue (trim "-.5".toList))
        else 0 :=
  ⟨toInt_conversions.1 _, toInt_conversions.2.1 _, toInt_conversions.2.2 _
    (.minus (@IsUnsigned.point [] ['5'] (by decide) (List.all_eq_true.mp rfl)
      (List.all_eq_true.mp rfl)))⟩

end SqlNumeric

end CppLinq
