import CppLinq.Values
import Mathlib.Data.Nat.Digits.Defs

/-!
# Values as text

How `mapping/data_types.h` writes values : `std::to_string`, the `to_string` functions of
the structured types and `wstring_to_utf8`. A byte of a text is a character below `256`.
-/

namespace CppLinq

/-! ## Numbers -/

/-- `std::to_string` of an unsigned number. -/
def decimal (n : ℕ) : List Char :=
  Nat.toDigits 10 n

/-- `std::to_string` of a signed number. -/
def signedDecimal (z : ℤ) : List Char :=
  if z < 0 then '-' :: decimal z.natAbs else decimal z.natAbs

/-- What a stream writes with a width, where zeros fill. -/
def padded (width : ℕ) (cs : List Char) : List Char :=
  List.replicate (width - cs.length) '0' ++ cs

/-- A digit of `"0123456789abcdef"`. -/
def hexDigit (n : ℕ) : Char :=
  Nat.digitChar n

/-- Two hexadecimal digits. -/
def hexByte (b : UInt8) : List Char :=
  [hexDigit (b.toNat / 16), hexDigit (b.toNat % 16)]

theorem isDigit_of_mem_decimal {n : ℕ} {c : Char} (h : c ∈ decimal n) : c.isDigit = true :=
  Nat.isDigit_of_mem_toDigits (by omega) (by omega) h

/-! ## Sizes -/

/-- `static_cast<int>` of a size. -/
def intSize (n : ℕ) : ℤ :=
  if n % 2 ^ 32 < 2 ^ 31 then (n % 2 ^ 32 : ℕ) else (n % 2 ^ 32 : ℕ) - 2 ^ 32

theorem intSize_of_low {n : ℕ} (h : n % 2 ^ 32 < 2 ^ 31) : intSize n = (n % 2 ^ 32 : ℕ) :=
  if_pos h

theorem intSize_of_high {n : ℕ} (h : 2 ^ 31 ≤ n % 2 ^ 32) : intSize n < 0 := by
  have hlt : n % 2 ^ 32 < 2 ^ 32 := Nat.mod_lt _ (by decide)
  rw [intSize, if_neg (by omega)]
  omega

/-! ## Wide strings -/

/-- A byte with the bits of its lead and the lowest bits of the rest. -/
def utf8Byte (lead rest mask : UInt32) : Char :=
  Char.ofNat (lead ||| (rest &&& mask)).toNat

/-- The bytes of a code unit. -/
def utf8Unit (cp : UInt32) : List Char :=
  if cp < 0x80 then [Char.ofNat cp.toNat]
  else if cp < 0x800 then [utf8Byte 0xC0 (cp >>> 6) 0x1F, utf8Byte 0x80 cp 0x3F]
  else if cp < 0x10000 then
    [utf8Byte 0xE0 (cp >>> 12) 0x0F, utf8Byte 0x80 (cp >>> 6) 0x3F, utf8Byte 0x80 cp 0x3F]
  else
    [utf8Byte 0xF0 (cp >>> 18) 0x07, utf8Byte 0x80 (cp >>> 12) 0x3F,
      utf8Byte 0x80 (cp >>> 6) 0x3F, utf8Byte 0x80 cp 0x3F]

/-- `wstring_to_utf8`. -/
def wstringToUtf8 (wstr : List UInt32) : List Char :=
  wstr.flatMap utf8Unit

/-! ## Structured values -/

/-- `SqlNumeric::to_string`. -/
def SqlNumeric.text (v : SqlNumeric) : List Char :=
  if v.value.toList.isEmpty then ['0'] else v.value.toList

/-- `SqlDate::to_string`. -/
def SqlDate.text (v : SqlDate) : List Char :=
  padded 4 (signedDecimal v.year.toInt) ++ ['-'] ++ padded 2 (decimal v.month.toNat) ++ ['-'] ++
    padded 2 (decimal v.day.toNat)

/-- `hh:mm:ss`. -/
def clockText (hour minute second : ℕ) : List Char :=
  padded 2 (decimal hour) ++ [':'] ++ padded 2 (decimal minute) ++ [':'] ++
    padded 2 (decimal second)

/-- Nanoseconds after a point, if there are any. -/
def fractionText (fraction : UInt32) : List Char :=
  if fraction > 0 then '.' :: padded 9 (decimal fraction.toNat) else []

/-- `SqlTime::to_string`. -/
def SqlTime.text (v : SqlTime) : List Char :=
  clockText v.hour.toNat v.minute.toNat v.second.toNat ++ fractionText v.fraction

/-- An offset from UTC, if there is one. -/
def offsetText (tzOffsetMinutes : Int16) : List Char :=
  if tzOffsetMinutes = 0 then []
  else
    let minutes := tzOffsetMinutes.toInt.natAbs
    (if tzOffsetMinutes < 0 then '-' else '+') :: padded 2 (decimal (minutes / 60)) ++ [':'] ++
      padded 2 (decimal (minutes % 60))

/-- `SqlTimestamp::to_string`. -/
def SqlTimestamp.text (v : SqlTimestamp) : List Char :=
  SqlDate.text ⟨v.year, v.month, v.day⟩ ++ [' '] ++
    clockText v.hour.toNat v.minute.toNat v.second.toNat ++ fractionText v.fraction ++
    offsetText v.tzOffsetMinutes

/-- `SqlInterval::to_string`. -/
def SqlInterval.text (v : SqlInterval) : List Char :=
  (if v.isNegative then ['-'] else []) ++
    match v.type with
    | .yearToMonth | .year | .month => decimal v.years.toNat ++ ['-'] ++ decimal v.months.toNat
    | _ =>
      decimal v.days.toNat ++ [' '] ++
        clockText v.hours.toNat v.minutes.toNat v.seconds.toNat ++ fractionText v.fraction

/-- `SqlGuid::to_string`. -/
def SqlGuid.text (v : SqlGuid) : List Char :=
  (v.bytes.toList.zipIdx.flatMap fun (b, i) =>
    (if i = 4 ∨ i = 6 ∨ i = 8 ∨ i = 10 then ['-'] else []) ++ hexByte b)

end CppLinq
