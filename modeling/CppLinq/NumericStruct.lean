import CppLinq.NumericOrder
import Mathlib.Data.Nat.Digits.Lemmas
import Mathlib.Tactic.IntervalCases

/-!
# `SQL_NUMERIC_STRUCT`

`string_to_numeric_struct` and `numeric_struct_to_string` of `odbc_utils.h`. A numeral becomes a
sign, a scale and an unscaled integer of sixteen bytes, the lowest first : each digit multiplies
the bytes by ten. The text comes from dividing them by ten until they are zero.
-/

namespace CppLinq

/-! ## Bytes -/

/-- `SQL_MAX_NUMERIC_LEN`. -/
def maxNumericLen : ℕ := 16

/-- The number of bytes, the lowest first. -/
def littleEndian (bs : List UInt8) : ℕ :=
  Nat.ofDigits 256 (bs.map UInt8.toNat)

/-- Ten times the bytes and a carry. -/
def timesTen (carry : UInt32) : List UInt8 → List UInt8
  | [] => []
  | b :: bs =>
    let cur := b.toUInt32 * 10 + carry
    (cur &&& 0xFF).toUInt8 :: timesTen (cur >>> 8) bs

/-- A tenth of the bytes, from the highest, and the remainder. -/
def overTen : List UInt8 → List UInt8 × UInt32
  | [] => ([], 0)
  | b :: bs =>
    let (quotient, remainder) := overTen bs
    let cur := (remainder <<< 8) ||| b.toUInt32
    ((cur / 10).toUInt8 :: quotient, cur % 10)

theorem littleEndian_cons (b : UInt8) (bs : List UInt8) :
    littleEndian (b :: bs) = b.toNat + 256 * littleEndian bs := by
  rw [littleEndian, List.map_cons, Nat.ofDigits_cons, littleEndian]

/-- So many bytes hold so many numbers. -/
theorem littleEndian_lt (bs : List UInt8) : littleEndian bs < 256 ^ bs.length := by
  induction bs with
  | nil => decide
  | cons b bs ih =>
    have hb := b.toNat_lt
    rw [littleEndian_cons, List.length_cons, pow_succ]
    omega

theorem digitChar_eq {n : ℕ} (h : n < 10) : Char.ofNat ('0'.toNat + n) = Nat.digitChar n := by
  interval_cases n <;> rfl

theorem length_timesTen (carry : UInt32) (bs : List UInt8) :
    (timesTen carry bs).length = bs.length := by
  induction bs generalizing carry with
  | nil => rfl
  | cons b bs ih => rw [timesTen, List.length_cons, ih, List.length_cons]

/-- A digit is taken in, as far as there are bytes. -/
theorem littleEndian_timesTen {carry : UInt32} (hcarry : carry.toNat < 10) (bs : List UInt8) :
    littleEndian (timesTen carry bs) =
      (littleEndian bs * 10 + carry.toNat) % 256 ^ bs.length := by
  induction bs generalizing carry with
  | nil => simp [timesTen, littleEndian, Nat.mod_one]
  | cons b bs ih =>
    have hb := b.toNat_lt
    have hcur : (b.toUInt32 * 10 + carry).toNat = b.toNat * 10 + carry.toNat := by
      rw [UInt32.toNat_add, UInt32.toNat_mul]
      simp
      omega
    have hlow : ((b.toUInt32 * 10 + carry) &&& 0xFF).toUInt8.toNat =
        (b.toNat * 10 + carry.toNat) % 256 := by
      have hmask : (0xFF : UInt32).toNat = 2 ^ 8 - 1 := rfl
      rw [UInt32.toNat_toUInt8, UInt32.toNat_and, hcur, hmask, Nat.and_two_pow_sub_one_eq_mod]
      omega
    have hhigh : ((b.toUInt32 * 10 + carry) >>> 8).toNat = (b.toNat * 10 + carry.toNat) / 256 := by
      rw [UInt32.toNat_shiftRight, hcur]
      simp [Nat.shiftRight_eq_div_pow]
    rw [timesTen, littleEndian_cons, hlow, ih (by omega), hhigh, littleEndian_cons,
      List.length_cons, pow_succ, Nat.mul_comm (256 ^ bs.length) 256, Nat.mod_mul]
    have hsplit : (b.toNat + 256 * littleEndian bs) * 10 + carry.toNat =
        (b.toNat * 10 + carry.toNat) + 256 * (littleEndian bs * 10) := by ring
    have hlow' : ((b.toNat + 256 * littleEndian bs) * 10 + carry.toNat) % 256 =
        (b.toNat * 10 + carry.toNat) % 256 := by omega
    have hhigh' : ((b.toNat + 256 * littleEndian bs) * 10 + carry.toNat) / 256 =
        littleEndian bs * 10 + (b.toNat * 10 + carry.toNat) / 256 := by omega
    rw [hlow', hhigh']

/-- Division leaves quotient and remainder. -/
theorem overTen_spec (bs : List UInt8) :
    littleEndian (overTen bs).1 = littleEndian bs / 10 ∧
      (overTen bs).2.toNat = littleEndian bs % 10 := by
  induction bs with
  | nil => exact ⟨rfl, rfl⟩
  | cons b bs ih =>
    obtain ⟨hquotient, hremainder⟩ := ih
    have hb := b.toNat_lt
    have hcur : (((overTen bs).2 <<< 8) ||| b.toUInt32).toNat =
        (overTen bs).2.toNat * 256 + b.toNat := by
      have hshift : ((overTen bs).2 <<< 8).toNat = (overTen bs).2.toNat <<< 8 := by
        rw [UInt32.toNat_shiftLeft, Nat.shiftLeft_eq, Nat.shiftLeft_eq]
        exact Nat.mod_eq_of_lt (by simp; omega)
      rw [UInt32.toNat_or, hshift, UInt8.toNat_toUInt32, ← Nat.shiftLeft_add_eq_or_of_lt hb,
        Nat.shiftLeft_eq]
    have hdiv : ((((overTen bs).2 <<< 8) ||| b.toUInt32) / 10).toUInt8.toNat =
        ((overTen bs).2.toNat * 256 + b.toNat) / 10 := by
      rw [UInt32.toNat_toUInt8, UInt32.toNat_div, hcur]
      simp
      omega
    have hmod : ((((overTen bs).2 <<< 8) ||| b.toUInt32) % 10).toNat =
        ((overTen bs).2.toNat * 256 + b.toNat) % 10 := by
      rw [UInt32.toNat_mod, hcur]
      rfl
    rw [overTen]
    simp only [littleEndian_cons, hdiv, hmod, hquotient, hremainder]
    omega

theorem littleEndian_eq_zero_iff (bs : List UInt8) :
    littleEndian bs = 0 ↔ bs.all (· = 0) = true := by
  induction bs with
  | nil => exact ⟨fun _ => rfl, fun _ => rfl⟩
  | cons b bs ih =>
    have hb : b.toNat = 0 ↔ b = 0 := by
      rw [← UInt8.toNat_inj]
      rfl
    rw [littleEndian_cons, Nat.add_eq_zero_iff, hb, Nat.mul_eq_zero, List.all_cons,
      Bool.and_eq_true, ← ih]
    simp

theorem littleEndian_replicate (n : ℕ) : littleEndian (List.replicate n 0) = 0 := by
  rw [littleEndian_eq_zero_iff, List.all_replicate]
  simp

/-- The digits of a number of bytes, the lowest first. -/
def divideDigits (bytes : List UInt8) : List Char :=
  let digit := Char.ofNat ('0'.toNat + (overTen bytes).2.toNat)
  if (overTen bytes).1.all (· = 0) then [digit] else digit :: divideDigits (overTen bytes).1
termination_by littleEndian bytes
decreasing_by
  rename_i h
  have hzero := mt (littleEndian_eq_zero_iff _).mp h
  rw [(overTen_spec bytes).1] at hzero ⊢
  omega

/-- The digits are those of the number. -/
theorem reverse_divideDigits (bytes : List UInt8) :
    (divideDigits bytes).reverse = decimal (littleEndian bytes) := by
  induction bytes using divideDigits.induct with
  | case1 bytes hzero =>
    obtain ⟨hquotient, hremainder⟩ := overTen_spec bytes
    have hlt : littleEndian bytes < 10 := by
      have h := (littleEndian_eq_zero_iff _).mpr hzero
      omega
    rw [divideDigits, if_pos hzero, hremainder, Nat.mod_eq_of_lt hlt, decimal,
      Nat.toDigits_of_lt_base hlt, List.reverse_singleton]
    congr 1
    exact digitChar_eq hlt
  | case2 bytes hzero ih =>
    obtain ⟨hquotient, hremainder⟩ := overTen_spec bytes
    have hle : 10 ≤ littleEndian bytes := by
      have h := mt (littleEndian_eq_zero_iff _).mp hzero
      omega
    rw [divideDigits, if_neg hzero, List.reverse_cons, ih, hquotient, hremainder, decimal, decimal,
      Nat.toDigits_of_base_le (by decide) hle]
    congr 2
    exact digitChar_eq (Nat.mod_lt _ (by decide))

/-! ## The struct -/

/-- `SQL_NUMERIC_STRUCT`. -/
structure NumericStruct where
  precision : UInt8 := 0
  scale : Int8 := 0
  sign : UInt8 := 0
  val : List UInt8 := List.replicate maxNumericLen 0
  size_val : val.length = maxNumericLen := by decide

/-- `numeric_struct_to_string`. -/
def numericStructToString (ns : NumericStruct) : List Char :=
  let scale := ns.scale.toInt.toNat
  if ns.val.all (· = 0) then if ns.scale ≤ 0 then ['0'] else ['0', '.'] ++ List.replicate scale '0'
  else
    let digits := (divideDigits ns.val).reverse
    let digits :=
      if ns.scale > 0 then
        let digits := if digits.length ≤ scale then
            List.replicate (scale + 1 - digits.length) '0' ++ digits
          else digits
        digits.take (digits.length - scale) ++ '.' :: digits.drop (digits.length - scale)
      else digits ++ List.replicate (-ns.scale.toInt).toNat '0'
    if ns.sign = 0 then '-' :: digits else digits

/-- The digits of a numeral without its sign, and its scale, which is at most `38`. -/
def scaledDigits (s : List Char) : List Char × Int8 :=
  match s.idxOf? '.' with
  | some dot =>
    let scale := min (s.length - dot - 1) 38
    (s.take dot ++ (s.drop (dot + 1)).take scale, .ofInt scale)
  | none => (s, 0)

/-- Zeros are added and digits dropped up to the scale that is asked for. -/
def rescale (defaultScale : Int8) (digits : List Char) (scale : Int8) : List Char × Int8 :=
  if defaultScale < 0 then (digits, scale)
  else if scale < defaultScale then
    (digits ++ List.replicate (defaultScale.toInt - scale.toInt).toNat '0', defaultScale)
  else
    let dropped := min (scale.toInt - defaultScale.toInt).toNat digits.length
    (digits.take (digits.length - dropped), scale - .ofInt dropped)

/-- The precision of digits where none is asked for. -/
def structPrecision (defaultPrec : UInt8) (digits : List Char) (scale : Int8) : UInt8 :=
  let significant := (digits.dropWhile (· = '0')).length
  let calcPrec := max 1 (max scale.toInt.toNat (if significant = 0 then 1 else significant))
  if defaultPrec > 0 then defaultPrec else .ofNat (min calcPrec 38)

/-- Take in digits from the left. -/
def storeDigits (digits : List Char) (val : List UInt8) : List UInt8 :=
  digits.foldl (fun val c => if c.isDigit then timesTen (.ofNat (digitVal c)) val else val) val

theorem length_storeDigits (digits : List Char) (val : List UInt8) :
    (storeDigits digits val).length = val.length := by
  induction digits generalizing val with
  | nil => rfl
  | cons c digits ih =>
    rw [storeDigits, List.foldl_cons, ← storeDigits, ih]
    split
    · exact length_timesTen _ _
    · rfl

/-- `string_to_numeric_struct`. -/
def stringToNumericStruct (str : List Char) (defaultPrec : UInt8) (defaultScale : Int8) :
    NumericStruct :=
  let s := trim str
  if s.isEmpty then { sign := 1 }
  else
    let unsigned := withoutSign s
    let (digits, scale) := scaledDigits unsigned
    let (digits, scale) := rescale defaultScale digits scale
    { precision := structPrecision defaultPrec digits scale
      scale
      sign := if s.head? = some '-' then 0 else 1
      val := storeDigits digits (List.replicate maxNumericLen 0)
      size_val := by rw [length_storeDigits, List.length_replicate] }

/-! ## What is stored -/

/-- The scale of the digits that are kept. -/
def keptScale (defaultScale : Int8) (cs : List Char) : ℕ :=
  if defaultScale < 0 then (afterPoint cs).length else defaultScale.toInt.toNat

/-- The digits before the point, and as many after it as the scale says. -/
def keptDigits (defaultScale : Int8) (cs : List Char) : List Char :=
  beforePoint cs ++ (afterPoint cs ++ List.replicate (keptScale defaultScale cs) '0').take
    (keptScale defaultScale cs)

theorem scaledDigits_unsigned {cs : List Char} (h : IsUnsigned cs)
    (hfraction : (afterPoint cs).length ≤ 38) :
    scaledDigits cs =
      (beforePoint cs ++ afterPoint cs, .ofInt ((afterPoint cs).length : ℕ)) := by
  cases h with
  | whole hne h =>
    obtain ⟨hbefore, hafter⟩ := parts_whole h
    rw [scaledDigits, idxOf?_whole h, hbefore, hafter, List.append_nil]
    rfl
  | @point whole fraction hne hwhole hdigits =>
    obtain ⟨hbefore, hafter⟩ := parts_point hwhole fraction
    rw [hafter] at hfraction
    have hlength : (whole ++ '.' :: fraction).length - whole.length - 1 = fraction.length := by
      simp
    have htake : (whole ++ '.' :: fraction).take whole.length = whole := List.take_left' rfl
    have hdrop : (whole ++ '.' :: fraction).drop (whole.length + 1) = fraction := by
      rw [← List.drop_drop, List.drop_left' rfl]
      rfl
    rw [scaledDigits, idxOf?_point hwhole, hbefore, hafter]
    simp only [hlength, htake, hdrop, Nat.min_eq_left hfraction, List.take_length]

/-- The digits are cut or filled to the scale. -/
theorem rescale_eq {cs : List Char} (hfraction : (afterPoint cs).length ≤ 38)
    (defaultScale : Int8) :
    rescale defaultScale (beforePoint cs ++ afterPoint cs) (.ofInt ((afterPoint cs).length : ℕ)) =
      (keptDigits defaultScale cs, .ofInt (keptScale defaultScale cs : ℕ)) := by
  have hlt := defaultScale.toInt_lt
  have hscale : (Int8.ofInt ((afterPoint cs).length : ℕ)).toInt = (afterPoint cs).length :=
    Int8.toInt_ofInt_of_le (by omega) (by omega)
  have hneg : defaultScale < 0 ↔ defaultScale.toInt < 0 := Int8.lt_iff_toInt_lt
  have hless : Int8.ofInt ((afterPoint cs).length : ℕ) < defaultScale ↔
      ((afterPoint cs).length : ℤ) < defaultScale.toInt := by
    rw [Int8.lt_iff_toInt_lt, hscale]
  rw [rescale, keptDigits, keptScale]
  by_cases hsign : defaultScale < 0
  · simp only [if_pos hsign]
    rw [List.take_left' rfl]
  · simp only [if_neg hsign, hless, hscale]
    have hnonneg := mt hneg.mpr hsign
    have hcast : (defaultScale.toInt.toNat : ℤ) = defaultScale.toInt := by omega
    split
    · -- zeros are added
      rename_i hadd
      have htake : (afterPoint cs ++ List.replicate defaultScale.toInt.toNat '0').take
          defaultScale.toInt.toNat = afterPoint cs ++
            List.replicate (defaultScale.toInt - ((afterPoint cs).length : ℕ)).toNat '0' := by
        rw [List.take_append, List.take_of_length_le (by omega), List.take_replicate]
        congr 2
        omega
      rw [htake, List.append_assoc, hcast, Int8.ofInt_toInt]
    · -- digits are dropped
      rename_i hdrop
      have hdropped : min (((afterPoint cs).length : ℤ) - defaultScale.toInt).toNat
          (beforePoint cs ++ afterPoint cs).length =
            (afterPoint cs).length - defaultScale.toInt.toNat := by
        rw [List.length_append]
        omega
      have htake : (afterPoint cs ++ List.replicate defaultScale.toInt.toNat '0').take
          defaultScale.toInt.toNat = (afterPoint cs).take defaultScale.toInt.toNat :=
        List.take_append_of_le_length (by omega)
      have hcut : (beforePoint cs ++ afterPoint cs).take ((beforePoint cs ++ afterPoint cs).length -
          ((afterPoint cs).length - defaultScale.toInt.toNat)) =
            beforePoint cs ++ (afterPoint cs).take defaultScale.toInt.toNat := by
        rw [List.take_append, List.length_append, List.take_of_length_le (by omega)]
        congr 2
        omega
      have hrest : ((afterPoint cs).length : ℤ) -
          ((afterPoint cs).length - defaultScale.toInt.toNat : ℕ) = defaultScale.toInt.toNat := by
        omega
      rw [hdropped, hcut, htake, ← Int8.ofInt_sub, hrest]

/-- The stored number is that of the digits, as far as the bytes reach. -/
theorem storeDigits_modEq {digits : List Char} (h : AllDigits digits) (val : List UInt8) :
    littleEndian (storeDigits digits val) ≡
      littleEndian val * 10 ^ digits.length + digitsValue digits [MOD 256 ^ val.length] := by
  induction digits generalizing val with
  | nil =>
    rw [digitsValue_nil, List.length_nil, pow_zero, Nat.mul_one, Nat.add_zero]
    exact Nat.ModEq.refl _
  | cons c digits ih =>
    have hc := h c List.mem_cons_self
    have hdigit : (UInt32.ofNat (digitVal c)).toNat = digitVal c :=
      UInt32.toNat_ofNat_of_lt' (Nat.lt_trans (digitVal_lt hc) (by decide))
    have htail := ih (fun d hd => h d (List.mem_cons_of_mem _ hd))
      (timesTen (.ofNat (digitVal c)) val)
    rw [length_timesTen, littleEndian_timesTen (by rw [hdigit]; exact digitVal_lt hc), hdigit]
      at htail
    have hhead : (littleEndian val * 10 + digitVal c) % 256 ^ val.length * 10 ^ digits.length +
        digitsValue digits ≡ (littleEndian val * 10 + digitVal c) * 10 ^ digits.length +
          digitsValue digits [MOD 256 ^ val.length] :=
      ((Nat.mod_modEq _ _).mul_right _).add_right _
    have hstep : storeDigits (c :: digits) val =
        storeDigits digits (timesTen (.ofNat (digitVal c)) val) := by
      rw [storeDigits, List.foldl_cons, if_pos hc, ← storeDigits]
    have hvalue : (littleEndian val * 10 + digitVal c) * 10 ^ digits.length + digitsValue digits =
        littleEndian val * 10 ^ (digits.length + 1) +
          (digitVal c * 10 ^ digits.length + digitsValue digits) := by ring
    rw [hstep, digitsValue_cons, List.length_cons, ← hvalue]
    exact htail.trans hhead

/-- The unscaled integer is stored. -/
theorem littleEndian_storeDigits {digits : List Char} (h : AllDigits digits)
    (hlt : digitsValue digits < 2 ^ 128) :
    littleEndian (storeDigits digits (List.replicate maxNumericLen 0)) = digitsValue digits := by
  have hmod := storeDigits_modEq h (List.replicate maxNumericLen 0)
  have hbytes := littleEndian_lt (storeDigits digits (List.replicate maxNumericLen 0))
  rw [length_storeDigits, List.length_replicate] at hbytes
  rw [littleEndian_replicate, Nat.zero_mul, Nat.zero_add, List.length_replicate] at hmod
  have hpow : 256 ^ maxNumericLen = 2 ^ 128 := rfl
  exact Nat.ModEq.eq_of_lt_of_lt hmod hbytes (by rwa [hpow])

theorem allDigits_keptDigits {cs : List Char} (h : IsUnsigned cs) (defaultScale : Int8) :
    AllDigits (keptDigits defaultScale cs) := by
  obtain ⟨hbefore, hafter, -⟩ := h.parts
  intro c hc
  rcases List.mem_append.mp hc with hc | hc
  · exact hbefore c hc
  · rcases List.mem_append.mp (List.mem_of_mem_take hc) with hc | hc
    · exact hafter c hc
    · rw [List.eq_of_mem_replicate hc]
      rfl

/-! ## What is written -/

/-- A number with its last digits after a point. -/
def scaledText (n scale : ℕ) : List Char :=
  if scale = 0 then decimal n
  else
    let digits := padded (scale + 1) (decimal n)
    digits.take (digits.length - scale) ++ '.' :: digits.drop (digits.length - scale)

/-- The text of a scaled number is a decimal of that scale. -/
theorem scaledText_spec (n scale : ℕ) :
    IsUnsigned (scaledText n scale) ∧ (afterPoint (scaledText n scale)).length = scale ∧
      unsignedValue (scaledText n scale) = n / 10 ^ scale := by
  rw [scaledText]
  split
  · rename_i hscale
    subst hscale
    have hdigits : AllDigits (decimal n) := fun _ => isDigit_of_mem_decimal
    obtain ⟨hbefore, hafter⟩ := parts_whole hdigits
    have hvalue : digitsValue (decimal n) = n := by simpa [padded] using digitsValue_padded 0 n
    rw [unsignedValue, hbefore, hafter, hvalue, digitsValue_nil]
    exact ⟨.whole Nat.toDigits_ne_nil hdigits, rfl, by simp⟩
  · rename_i hscale
    have hdigits : AllDigits (padded (scale + 1) (decimal n)) := fun _ => isDigit_of_mem_padded
    have hlength : scale + 1 ≤ (padded (scale + 1) (decimal n)).length := by
      rw [padded, List.length_append, List.length_replicate]
      omega
    have hvalue := digitsValue_padded (scale + 1) n
    generalize padded (scale + 1) (decimal n) = digits at hdigits hlength hvalue ⊢
    have htake : AllDigits (digits.take (digits.length - scale)) :=
      fun c hc => hdigits c (List.mem_of_mem_take hc)
    have hdrop : AllDigits (digits.drop (digits.length - scale)) :=
      fun c hc => hdigits c (List.mem_of_mem_drop hc)
    have hfraction : (digits.drop (digits.length - scale)).length = scale := by
      rw [List.length_drop]
      omega
    have hne : digits.take (digits.length - scale) ++ digits.drop (digits.length - scale) ≠ [] := by
      rw [List.take_append_drop, ← List.length_pos_iff]
      omega
    obtain ⟨hbefore, hafter⟩ := parts_point htake (digits.drop (digits.length - scale))
    refine ⟨.point hne htake hdrop, by rw [hafter, hfraction], ?_⟩
    have hsum : digitsValue (digits.take (digits.length - scale)) * 10 ^ scale +
        digitsValue (digits.drop (digits.length - scale)) = n := by
      have happend := digitsValue_append (digits.take (digits.length - scale))
        (digits.drop (digits.length - scale))
      rw [List.take_append_drop, hfraction, hvalue] at happend
      exact happend.symm
    rw [unsignedValue, hbefore, hafter, hfraction, ← hsum]
    push_cast
    field_simp

/-- The text of a struct whose scale is not negative. -/
theorem numericStructToString_eq {ns : NumericStruct} {scale : ℕ}
    (hscale : ns.scale.toInt = scale) :
    numericStructToString ns =
      (if littleEndian ns.val ≠ 0 ∧ ns.sign = 0 then ['-'] else []) ++
        scaledText (littleEndian ns.val) scale := by
  have hpos : ns.scale > 0 ↔ scale ≠ 0 := by
    rw [gt_iff_lt, Int8.lt_iff_toInt_lt, hscale]
    simp [Nat.pos_iff_ne_zero]
  have hnat : ns.scale.toInt.toNat = scale := by rw [hscale, Int.toNat_natCast]
  rw [numericStructToString, scaledText]
  simp only [hnat]
  by_cases hzero : littleEndian ns.val = 0
  · -- zero has no sign
    have hsign : ¬ ((0 : ℕ) ≠ 0 ∧ ns.sign = 0) := fun hsign => hsign.1 rfl
    rw [if_pos ((littleEndian_eq_zero_iff _).mp hzero), hzero, if_neg hsign, List.nil_append]
    have hdecimal : decimal 0 = ['0'] := rfl
    have hle : ns.scale ≤ 0 ↔ scale = 0 := by
      rw [Int8.le_iff_toInt_le, hscale]
      simp
    simp only [hle]
    split
    · rw [hdecimal]
    · have hpadded : padded (scale + 1) (decimal 0) = '0' :: List.replicate scale '0' := by
        rw [hdecimal, padded, List.length_singleton, Nat.add_sub_cancel, ← List.replicate_succ',
          List.replicate_succ]
      rw [hpadded, List.length_cons, List.length_replicate, Nat.add_sub_cancel_left]
      rfl
  · rw [if_neg (mt (littleEndian_eq_zero_iff _).mpr hzero), reverse_divideDigits]
    generalize decimal (littleEndian ns.val) = digits
    have hpad : (if digits.length ≤ scale then
        List.replicate (scale + 1 - digits.length) '0' ++ digits else digits) =
          padded (scale + 1) digits := by
      rw [padded]
      split
      · rfl
      · rename_i hlong
        rw [Nat.sub_eq_zero_of_le (by omega), List.replicate_zero, List.nil_append]
    have hzeros : (-ns.scale.toInt).toNat = 0 := by
      rw [hscale]
      omega
    rw [hpad, hzeros, List.replicate_zero, List.append_nil]
    simp only [hpos, ne_eq, hzero, not_false_eq_true, true_and, ite_not]
    split
    · rfl
    · rfl

/-- The text has as many digits after the point as the scale says, and denotes the number. -/
theorem numericStructToString_spec {ns : NumericStruct} {scale : ℕ}
    (hscale : ns.scale.toInt = scale) :
    IsNumeral (numericStructToString ns) ∧ (afterPoint (numericStructToString ns)).length = scale ∧
      decimalValue (numericStructToString ns) =
        (if ns.sign = 0 then -1 else 1) * (littleEndian ns.val / 10 ^ scale) ∧
      (littleEndian ns.val = 0 → (numericStructToString ns).head? ≠ some '-') := by
  obtain ⟨hunsigned, hlength, hvalue⟩ := scaledText_spec (littleEndian ns.val) scale
  rw [numericStructToString_eq hscale]
  split
  · rename_i hnegative
    have hpoint : afterPoint ('-' :: scaledText (littleEndian ns.val) scale) =
        afterPoint (scaledText (littleEndian ns.val) scale) := by
      rw [afterPoint, List.dropWhile_cons_of_pos (by decide), afterPoint]
    rw [List.singleton_append, hpoint, decimalValue_minus, hvalue, if_pos hnegative.2, neg_one_mul]
    exact ⟨.inr ⟨_, rfl, hunsigned⟩, hlength, rfl, fun h => absurd h hnegative.1⟩
  · rename_i hnonnegative
    have hvalue' : (if ns.sign = 0 then -1 else 1 : ℚ) * (littleEndian ns.val / 10 ^ scale) =
        littleEndian ns.val / 10 ^ scale := by
      by_cases hzero : littleEndian ns.val = 0
      · rw [hzero]
        simp
      · rw [if_neg fun h => hnonnegative ⟨hzero, h⟩, one_mul]
    rw [List.nil_append, decimalValue_unsigned hunsigned, hvalue, hvalue']
    exact ⟨.inl hunsigned, hlength, rfl, fun _ => hunsigned.head?_ne.1⟩

/-! ## There and back -/

theorem IsDecimal.withoutSign {cs : List Char} (h : IsDecimal cs) :
    IsUnsigned (withoutSign cs) ∧ cs ≠ [] := by
  have hne : ∀ {digits : List Char}, IsUnsigned digits → digits ≠ [] := by
    rintro _ hdigits rfl
    exact absurd hdigits.any_isDigit (by decide)
  cases h with
  | unsigned h =>
    rw [withoutSign_unsigned h]
    exact ⟨h, hne h⟩
  | plus h => exact ⟨h, List.cons_ne_nil _ _⟩
  | minus h => exact ⟨h, List.cons_ne_nil _ _⟩

/-- A decimal string is stored as the digits that are kept, with its scale and its sign. -/
theorem stringToNumericStruct_spec {cs : List Char} (h : IsDecimal (trim cs))
    (hfraction : (afterPoint (withoutSign (trim cs))).length ≤ 38) (defaultPrec : UInt8)
    {defaultScale : Int8}
    (hfits : digitsValue (keptDigits defaultScale (withoutSign (trim cs))) < 2 ^ 128) :
    let ns := stringToNumericStruct cs defaultPrec defaultScale
    littleEndian ns.val = digitsValue (keptDigits defaultScale (withoutSign (trim cs))) ∧
      ns.scale.toInt = keptScale defaultScale (withoutSign (trim cs)) ∧
      ns.sign = if (trim cs).head? = some '-' then 0 else 1 := by
  obtain ⟨hunsigned, hne⟩ := h.withoutSign
  have hempty : (trim cs).isEmpty = false := by simpa using hne
  have hscale : keptScale defaultScale (withoutSign (trim cs)) < 128 := by
    have hlt := defaultScale.toInt_lt
    rw [keptScale]
    split
    · omega
    · omega
  dsimp only
  rw [stringToNumericStruct]
  simp only [hempty, Bool.false_eq_true, if_false, scaledDigits_unsigned hunsigned hfraction,
    rescale_eq hfraction]
  exact ⟨littleEndian_storeDigits (allDigits_keptDigits hunsigned _) hfits,
    Int8.toInt_ofInt_of_le (by omega) (by omega), trivial⟩

/-- A decimal string, stored and written again, is the number of the digits that are kept,
whatever scale is asked for. -/
theorem numericStruct_roundTrip {cs : List Char} (h : IsDecimal (trim cs))
    (hfraction : (afterPoint (withoutSign (trim cs))).length ≤ 38) (defaultPrec : UInt8)
    {defaultScale : Int8}
    (hfits : digitsValue (keptDigits defaultScale (withoutSign (trim cs))) < 2 ^ 128) :
    let u := digitsValue (keptDigits defaultScale (withoutSign (trim cs)))
    let scale := keptScale defaultScale (withoutSign (trim cs))
    let isNegative := (trim cs).head? = some '-'
    let ns := stringToNumericStruct cs defaultPrec defaultScale
    let text := numericStructToString ns
    (littleEndian ns.val = u ∧ ns.scale.toInt = scale ∧ ns.sign = if isNegative then 0 else 1) ∧
      IsNumeral text ∧ (afterPoint text).length = scale ∧
      decimalValue text = (if isNegative then -1 else 1) * (u / 10 ^ scale) ∧
      (u = 0 → text.head? ≠ some '-') := by
  intro u scale isNegative ns text
  obtain ⟨hval, hstored, hsign⟩ := stringToNumericStruct_spec h hfraction defaultPrec hfits
  obtain ⟨hnumeral, hlength, hvalue, hzero⟩ := numericStructToString_spec hstored
  have hminus : ns.sign = 0 ↔ isNegative := by
    rw [hsign]
    split
    · rename_i hhead
      exact ⟨fun _ => hhead, fun _ => rfl⟩
    · rename_i hhead
      exact ⟨fun h => absurd h (by decide), fun h => absurd h hhead⟩
  have hfactor : (if ns.sign = 0 then -1 else 1 : ℚ) = if isNegative then -1 else 1 := by
    by_cases hnegative : isNegative
    · rw [if_pos (hminus.mpr hnegative), if_pos hnegative]
    · rw [if_neg (mt hminus.mp hnegative), if_neg hnegative]
  rw [hval] at hvalue hzero
  exact ⟨⟨hval, hstored, hsign⟩, hnumeral, hlength, hvalue.trans (congrArg (· * _) hfactor), hzero⟩

theorem numericStruct_roundTrip_at :
    let u := digitsValue (keptDigits 3 (withoutSign (trim "-12.34".toList)))
    let scale := keptScale 3 (withoutSign (trim "-12.34".toList))
    let isNegative := (trim "-12.34".toList).head? = some '-'
    let ns := stringToNumericStruct "-12.34".toList 0 3
    let text := numericStructToString ns
    (littleEndian ns.val = u ∧ ns.scale.toInt = scale ∧ ns.sign = if isNegative then 0 else 1) ∧
      IsNumeral text ∧ (afterPoint text).length = scale ∧
      decimalValue text = (if isNegative then -1 else 1) * (u / 10 ^ scale) ∧
      (u = 0 → text.head? ≠ some '-') :=
  @numericStruct_roundTrip "-12.34".toList
    (.minus (@IsUnsigned.point ['1', '2'] ['3', '4'] (by decide) (List.all_eq_true.mp rfl)
      (List.all_eq_true.mp rfl)))
    (by decide) 0 3 (by decide)

end CppLinq
