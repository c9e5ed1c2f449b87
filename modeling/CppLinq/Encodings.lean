import CppLinq.OdbcBatchSlots
import CppLinq.WideStrings

/-!
# Encodings of text

Texts cross to the drivers in UTF-8 or UTF-16. Both conversions of `mapping/data_types.h` give
back what the other reads when the bytes are well formed, and neither reads past the end. The
conversions of `odbc_utils.h` are inverse on characters, with and without the terminator. On bytes
that are not well formed the decoder counts on the first byte of a sequence alone.
-/

namespace CppLinq

/-! ## UTF-16 -/

/-- A character that is not zero has no unit zero. -/
theorem wideUnits_ne_zero {wc : UInt32} (hscalar : IsScalar wc) (hne : wc ≠ 0) :
    ∀ unit ∈ wideUnits wc, unit ≠ 0 := by
  have hdecode := @utf16Decode_wideUnits [wc] (by simpa using hscalar)
  rw [List.flatMap_singleton] at hdecode
  rw [wideUnits] at hdecode ⊢
  by_cases hlow : wc < 0x10000
  · rw [if_pos hlow] at hdecode ⊢
    simp only [List.mem_singleton, forall_eq]
    intro hzero
    rw [hzero] at hdecode
    exact hne (List.cons.inj hdecode).1.symm
  · rw [if_neg hlow]
    have hfirst := toNat_surrogate (show (0xD800 : UInt32).toNat = 54 * 1024 from rfl) (by decide)
      ((wc - 0x10000) >>> 10)
    have hsecond := toNat_surrogate (show (0xDC00 : UInt32).toNat = 55 * 1024 from rfl)
      (by decide) (wc - 0x10000)
    have hpos {unit : UInt16} {n : ℕ} (h : unit.toNat = n) (hn : 0 < n) : unit ≠ 0 := by
      rintro rfl
      rw [← h] at hn
      exact absurd hn (by decide)
    simp only [List.mem_cons, List.not_mem_nil, or_false, forall_eq_or_imp, forall_eq]
    exact ⟨hpos hfirst (by omega), hpos hsecond (by omega)⟩

/-- The units of a text without zeros have no zero. -/
theorem takeWhile_wideUnits {wstr : List UInt32} (h : ∀ wc ∈ wstr, IsScalar wc ∧ wc ≠ 0)
    (tail : List UInt16) :
    (wstr.flatMap wideUnits ++ tail).takeWhile (· ≠ 0) =
      wstr.flatMap wideUnits ++ tail.takeWhile (· ≠ 0) := by
  refine List.takeWhile_append_of_pos fun unit hunit => decide_eq_true ?_
  obtain ⟨wc, hwc, hunit⟩ := List.mem_flatMap.mp hunit
  exact wideUnits_ne_zero (h wc hwc).1 (h wc hwc).2 unit hunit

/-- Characters cross to UTF-16 and back, whether the terminator is counted or not. The sizes
that a batch finds for them have room for it. -/
theorem utf16_roundTrip {wstr : List UInt32} (h : ∀ wc ∈ wstr, IsScalar wc ∧ wc ≠ 0) :
    let units := wstringToSqlwchar wstr
    let n := units.length - 1
    sqlwcharToWstring (units.take n) = wstr ∧ sqlwcharToWstring (units.take (n + 1)) = wstr ∧
      units.getLast? = some 0 ∧
      1 + (wstr.map fun wc => if wc ≥ 0x10000 then 2 else 1).sum = n + 1 ∧
      (TypeChoice.step {} (.wstring wstr)).maxLen = n + 1 := by
  intro units n
  have hlength : units.length = n + 1 := by
    have hsum : units.length = _ := length_wstringToSqlwchar wstr
    exact (Nat.sub_add_cancel (by omega)).symm
  have hn : n = (wstr.flatMap wideUnits).length := by
    have happend : units.length = (wstr.flatMap wideUnits).length + 1 := List.length_append
    omega
  have hdecode := utf16Decode_wideUnits fun wc hwc => (h wc hwc).1
  have hsum : 1 + (wstr.map fun wc => if wc ≥ 0x10000 then 2 else 1).sum = n + 1 := by
    rw [← length_wstringToSqlwchar, ← hlength]
  refine ⟨?_, ?_, ?_, hsum, ?_⟩
  · have hwhile := takeWhile_wideUnits h []
    rw [List.append_nil, List.takeWhile_nil, List.append_nil] at hwhile
    rw [sqlwcharToWstring_eq, hn, show units = wstr.flatMap wideUnits ++ [0] from rfl,
      List.take_left, hwhile, hdecode]
  · have hwhile := takeWhile_wideUnits h [0]
    rw [List.takeWhile_cons_of_neg (by decide), List.append_nil] at hwhile
    rw [sqlwcharToWstring_eq, ← hlength, List.take_length,
      show units = wstr.flatMap wideUnits ++ [0] from rfl, hwhile, hdecode]
  · exact List.getLast?_concat
  · exact (max_eq_right (Nat.le_add_right 1 _)).trans hsum

/-- A text that ends in a surrogate pair. -/
theorem utf16_roundTrip_pair :
    (∀ wc ∈ [(0x41 : UInt32), 0x1F600], IsScalar wc ∧ wc ≠ 0) ∧
      sqlwcharToWstring ((wstringToSqlwchar [0x41, 0x1F600]).take 3) = [0x41, 0x1F600] :=
  have h : ∀ wc ∈ [(0x41 : UInt32), 0x1F600], IsScalar wc ∧ wc ≠ 0 := by
    simp only [List.mem_cons, List.not_mem_nil, or_false, forall_eq_or_imp, forall_eq, IsScalar]
    decide
  ⟨h, (utf16_roundTrip h).1⟩

/-! ## Well-formed UTF-8 -/

/-- The bytes of a string, as its characters. -/
def byteString (bytes : List UInt8) : List Char :=
  bytes.map fun b => Char.ofNat b.toNat

/-- A byte after the first of a sequence. -/
def IsTailByte (b : UInt8) : Prop :=
  0x80 ≤ b ∧ b ≤ 0xBF

/-- The byte sequences of a character. The second byte keeps out longer forms than needed, halves
of surrogate pairs and what is above `0x10FFFF`. -/
inductive IsUtf8Sequence : List UInt8 → Prop
  | one {b : UInt8} (h : b ≤ 0x7F) : IsUtf8Sequence [b]
  | two {b c : UInt8} (hlow : 0xC2 ≤ b) (hhigh : b ≤ 0xDF) (hc : IsTailByte c) :
    IsUtf8Sequence [b, c]
  | three {b c d : UInt8} (hlow : 0xE0 ≤ b) (hhigh : b ≤ 0xEF) (hc : IsTailByte c)
    (hshort : b = 0xE0 → 0xA0 ≤ c) (hsurrogate : b = 0xED → c ≤ 0x9F) (hd : IsTailByte d) :
    IsUtf8Sequence [b, c, d]
  | four {b c d e : UInt8} (hlow : 0xF0 ≤ b) (hhigh : b ≤ 0xF4) (hc : IsTailByte c)
    (hshort : b = 0xF0 → 0x90 ≤ c) (hlast : b = 0xF4 → c ≤ 0x8F) (hd : IsTailByte d)
    (he : IsTailByte e) : IsUtf8Sequence [b, c, d, e]

/-- The well-formed byte sequences of UTF-8, by the table of the Unicode standard. -/
inductive WellFormedUtf8 : List UInt8 → Prop
  | nil : WellFormedUtf8 []
  | append {bytes rest : List UInt8} (h : IsUtf8Sequence bytes) (hrest : WellFormedUtf8 rest) :
    WellFormedUtf8 (bytes ++ rest)

/-- A byte is its lead and the bits that its mask keeps. -/
theorem utf8Byte_eq {lead rest mask : UInt32} {high width : ℕ}
    (hlead : lead.toNat = high * 2 ^ width) (hmask : mask.toNat = 2 ^ width - 1) :
    utf8Byte lead rest mask = Char.ofNat (high * 2 ^ width + rest.toNat % 2 ^ width) := by
  rw [utf8Byte, UInt32.toNat_or, UInt32.toNat_and, hlead, hmask, Nat.and_two_pow_sub_one_eq_mod,
    ← Nat.shiftLeft_eq, ← Nat.shiftLeft_add_eq_or_of_lt (Nat.mod_lt _ (Nat.two_pow_pos width))]

/-- The bytes of a unit in numbers. -/
theorem utf8Unit_eq (cp : UInt32) :
    utf8Unit cp =
      (if cp.toNat < 128 then [cp.toNat]
      else if cp.toNat < 2048 then [192 + cp.toNat / 64 % 32, 128 + cp.toNat % 64]
      else if cp.toNat < 65536 then
        [224 + cp.toNat / 4096 % 16, 128 + cp.toNat / 64 % 64, 128 + cp.toNat % 64]
      else [240 + cp.toNat / 262144 % 8, 128 + cp.toNat / 4096 % 64, 128 + cp.toNat / 64 % 64,
        128 + cp.toNat % 64]).map Char.ofNat := by
  have htail (rest : UInt32) : utf8Byte 0x80 rest 0x3F = Char.ofNat (128 + rest.toNat % 64) :=
    utf8Byte_eq (show (0x80 : UInt32).toNat = 2 * 2 ^ 6 from rfl) rfl
  have htwo (rest : UInt32) : utf8Byte 0xC0 rest 0x1F = Char.ofNat (192 + rest.toNat % 32) :=
    utf8Byte_eq (show (0xC0 : UInt32).toNat = 6 * 2 ^ 5 from rfl) rfl
  have hthree (rest : UInt32) : utf8Byte 0xE0 rest 0x0F = Char.ofNat (224 + rest.toNat % 16) :=
    utf8Byte_eq (show (0xE0 : UInt32).toNat = 14 * 2 ^ 4 from rfl) rfl
  have hfour (rest : UInt32) : utf8Byte 0xF0 rest 0x07 = Char.ofNat (240 + rest.toNat % 8) :=
    utf8Byte_eq (show (0xF0 : UInt32).toNat = 30 * 2 ^ 3 from rfl) rfl
  obtain ⟨h6, h12, h18⟩ := toNat_shiftRight cp
  rw [utf8Unit, htwo, hthree, hfour, htail, htail, htail, h6, h12, h18]
  simp only [UInt32.lt_iff_toNat_lt, UInt32.reduceToNat]
  split_ifs <;> rfl

/-- A sequence is the bytes of one character. -/
theorem IsUtf8Sequence.exists_unit {bytes : List UInt8} (h : IsUtf8Sequence bytes) :
    ∃ cp < (0x200000 : UInt32), utf8Unit cp = byteString bytes := by
  have hof {n : ℕ} (hn : n < 2097152) : ∃ cp < (0x200000 : UInt32), cp.toNat = n := by
    have htoNat : (UInt32.ofNat n).toNat = n :=
      UInt32.toNat_ofNat_of_lt' (Nat.lt_trans hn (by decide))
    exact ⟨.ofNat n, UInt32.lt_iff_toNat_lt.mpr (by rw [htoNat]; exact hn), htoNat⟩
  cases h with
  | @one b h =>
    simp only [UInt8.le_iff_toNat_le, UInt8.reduceToNat] at h
    obtain ⟨cp, hlt, hcp⟩ := hof (n := b.toNat) (by omega)
    refine ⟨cp, hlt, ?_⟩
    rw [utf8Unit_eq, hcp, if_pos (by omega)]
    rfl
  | @two b c hlow hhigh hc =>
    simp only [IsTailByte, UInt8.le_iff_toNat_le, UInt8.reduceToNat] at hlow hhigh hc
    obtain ⟨cp, hlt, hcp⟩ := hof (n := (b.toNat - 192) * 64 + (c.toNat - 128)) (by omega)
    refine ⟨cp, hlt, ?_⟩
    have hb : 192 + cp.toNat / 64 % 32 = b.toNat := by omega
    have hc : 128 + cp.toNat % 64 = c.toNat := by omega
    rw [utf8Unit_eq, if_neg (by omega), if_pos (by omega), hb, hc]
    rfl
  | @three b c d hlow hhigh hc hshort hsurrogate hd =>
    simp only [IsTailByte, ← UInt8.toNat_inj, UInt8.le_iff_toNat_le, UInt8.reduceToNat]
      at hlow hhigh hc hshort hd
    obtain ⟨cp, hlt, hcp⟩ :=
      hof (n := (b.toNat - 224) * 4096 + (c.toNat - 128) * 64 + (d.toNat - 128)) (by omega)
    refine ⟨cp, hlt, ?_⟩
    have hb : 224 + cp.toNat / 4096 % 16 = b.toNat := by omega
    have hc : 128 + cp.toNat / 64 % 64 = c.toNat := by omega
    have hd : 128 + cp.toNat % 64 = d.toNat := by omega
    rw [utf8Unit_eq, if_neg (by omega), if_neg (by omega), if_pos (by omega), hb, hc, hd]
    rfl
  | @four b c d e hlow hhigh hc hshort hlast hd he =>
    simp only [IsTailByte, ← UInt8.toNat_inj, UInt8.le_iff_toNat_le, UInt8.reduceToNat]
      at hlow hhigh hc hshort hlast hd he
    obtain ⟨cp, hlt, hcp⟩ := hof (n := (b.toNat - 240) * 262144 + (c.toNat - 128) * 4096 +
      (d.toNat - 128) * 64 + (e.toNat - 128)) (by omega)
    refine ⟨cp, hlt, ?_⟩
    have hb : 240 + cp.toNat / 262144 % 8 = b.toNat := by omega
    have hc : 128 + cp.toNat / 4096 % 64 = c.toNat := by omega
    have hd : 128 + cp.toNat / 64 % 64 = d.toNat := by omega
    have he : 128 + cp.toNat % 64 = e.toNat := by omega
    rw [utf8Unit_eq, if_neg (by omega), if_neg (by omega), if_neg (by omega), hb, hc, hd, he]
    rfl

/-- A well-formed string is what its characters are written as. -/
theorem WellFormedUtf8.exists_wstring {bytes : List UInt8} (h : WellFormedUtf8 bytes) :
    ∃ wstr, (∀ cp ∈ wstr, cp < (0x200000 : UInt32)) ∧ wstringToUtf8 wstr = byteString bytes := by
  induction h with
  | nil => exact ⟨[], List.forall_mem_nil _, rfl⟩
  | append h hrest ih =>
    obtain ⟨cp, hcp, hunit⟩ := h.exists_unit
    obtain ⟨wstr, hwstr, hbytes⟩ := ih
    refine ⟨cp :: wstr, List.forall_mem_cons.mpr ⟨hcp, hwstr⟩, ?_⟩
    rw [wstringToUtf8] at hbytes
    rw [wstringToUtf8, List.flatMap_cons, hunit, hbytes, byteString, byteString, byteString,
      List.map_append]

/-! ## Reads -/

/-- `wstring_to_utf8` from a unit on. No result is a read past the end. -/
def wstringToUtf8From (wstr : List UInt32) : ℕ → ℕ → Option (List Char)
  | 0, _ => some []
  | turns + 1, i =>
    if i = wstr.length then some []
    else do
      let wc ← wstr[i]?
      let str ← wstringToUtf8From wstr turns (i + 1)
      return utf8Unit wc ++ str

/-- A byte of a string, as an unsigned number. -/
def byteAt (str : List Char) (i : ℕ) : Option UInt32 :=
  str[i]?.map fun c => .ofNat c.toNat

/-- `utf8_to_wstring` from a byte on. No result is a read past the end. -/
def utf8ToWstringFrom (str : List Char) : ℕ → ℕ → Option (List UInt32)
  | 0, _ => some []
  | turns + 1, i =>
    if i < str.length then do
      let c ← byteAt str i
      if c < 0x80 then return c :: (← utf8ToWstringFrom str turns (i + 1))
      else if c &&& 0xE0 = 0xC0 ∧ i + 1 < str.length then do
        let c1 ← byteAt str (i + 1)
        let wc := (c &&& 0x1F) <<< 6 ||| (c1 &&& 0x3F)
        return wc :: (← utf8ToWstringFrom str turns (i + 2))
      else if c &&& 0xF0 = 0xE0 ∧ i + 2 < str.length then do
        let c1 ← byteAt str (i + 1)
        let c2 ← byteAt str (i + 2)
        let wc := (c &&& 0x0F) <<< 12 ||| (c1 &&& 0x3F) <<< 6 ||| (c2 &&& 0x3F)
        return wc :: (← utf8ToWstringFrom str turns (i + 3))
      else if c &&& 0xF8 = 0xF0 ∧ i + 3 < str.length then do
        let c1 ← byteAt str (i + 1)
        let c2 ← byteAt str (i + 2)
        let c3 ← byteAt str (i + 3)
        let wc := (c &&& 0x07) <<< 18 ||| (c1 &&& 0x3F) <<< 12 ||| (c2 &&& 0x3F) <<< 6 |||
          (c3 &&& 0x3F)
        return wc :: (← utf8ToWstringFrom str turns (i + 4))
      else return c :: (← utf8ToWstringFrom str turns (i + 1))
    else some []

theorem wstringToUtf8From_eq {wstr : List UInt32} {turns i : ℕ} (h : wstr.length ≤ i + turns)
    (hi : i ≤ wstr.length) :
    wstringToUtf8From wstr turns i = some (wstringToUtf8 (wstr.drop i)) := by
  induction turns generalizing i with
  | zero =>
    rw [List.drop_of_length_le (by omega)]
    rfl
  | succ turns ih =>
    rw [wstringToUtf8From]
    split_ifs with hend
    · rw [List.drop_of_length_le (by omega)]
      rfl
    · have hlt : i < wstr.length := by omega
      rw [List.drop_eq_getElem_cons hlt, List.getElem?_eq_getElem hlt, ih (by omega) hlt]
      rfl

/-- A byte that is there is read. -/
theorem byteAt_eq {str : List Char} {i k : ℕ} (h : i + k + 1 < str.length) :
    byteAt str (i + (k + 1)) = some (.ofNat ((str.drop (i + 1)).getD k '0').toNat) := by
  have hlt : k < (str.drop (i + 1)).length := by
    rw [List.length_drop]
    omega
  rw [byteAt, List.getD_eq_getElem?_getD, List.getElem?_drop, show i + 1 + k = i + (k + 1) by omega,
    List.getElem?_eq_getElem (by omega : i + (k + 1) < str.length)]
  rfl

/-- The turns over positions are the turns over what is left. -/
theorem utf8ToWstringFrom_eq (str : List Char) (turns i : ℕ) :
    utf8ToWstringFrom str turns i = some (utf8Loop turns (str.drop i)) := by
  induction turns generalizing i with
  | zero => cases str.drop i <;> rfl
  | succ turns ih =>
    rw [utf8ToWstringFrom]
    split_ifs with hi
    · have hfirst : byteAt str i = some (.ofNat str[i].toNat) := by
        rw [byteAt, List.getElem?_eq_getElem hi]
        rfl
      have hleft (n : ℕ) : (n + 1 ≤ (str.drop (i + 1)).length) = (i + (n + 1) < str.length) := by
        rw [List.length_drop]
        exact propext (by omega)
      rw [List.drop_eq_getElem_cons hi, hfirst, Option.bind_eq_bind, Option.bind_some, utf8Loop]
      have h1 := @byteAt_eq str i 0
      have h2 := @byteAt_eq str i 1
      have h3 := @byteAt_eq str i 2
      simp only [ih, List.drop_drop, bitsOf, hleft 0, hleft 1, hleft 2]
      split_ifs with hone htwo hthree hfour
      · rfl
      · rw [h1 htwo.2]
        rfl
      · rw [h1 (by omega), h2 hthree.2]
        rfl
      · rw [h1 (by omega), h2 (by omega), h3 hfour.2]
        rfl
      · rfl
    · rw [List.drop_of_length_le (by omega)]
      rfl

/-- Texts cross to UTF-8 and back, well-formed strings cross from it and back, and no conversion
reads past the end. -/
theorem utf8_roundTrip :
    (∀ wstr : List UInt32, (∀ cp ∈ wstr, cp < 0x200000) →
      utf8ToWstring (wstringToUtf8 wstr) = wstr) ∧
    (∀ bytes : List UInt8, WellFormedUtf8 bytes →
      wstringToUtf8 (utf8ToWstring (byteString bytes)) = byteString bytes) ∧
    (∀ wstr : List UInt32, wstringToUtf8From wstr wstr.length 0 = some (wstringToUtf8 wstr)) ∧
    ∀ str : List Char, utf8ToWstringFrom str str.length 0 = some (utf8ToWstring str) := by
  refine ⟨fun wstr h => utf8ToWstring_wstringToUtf8 h, fun bytes h => ?_, fun wstr => ?_,
    fun str => ?_⟩
  · obtain ⟨wstr, hwstr, hbytes⟩ := h.exists_wstring
    rw [← hbytes, utf8ToWstring_wstringToUtf8 hwstr]
  · exact wstringToUtf8From_eq (Nat.le_add_left ..) (Nat.zero_le _)
  · exact utf8ToWstringFrom_eq str str.length 0

/-- The euro sign, and its bytes. -/
theorem utf8_roundTrip_euro :
    utf8ToWstring (wstringToUtf8 [0x20AC]) = [0x20AC] ∧
      wstringToUtf8 (utf8ToWstring (byteString [0xE2, 0x82, 0xAC])) =
        byteString [0xE2, 0x82, 0xAC] :=
  ⟨utf8_roundTrip.1 [0x20AC] fun cp hcp => List.mem_singleton.mp hcp ▸ by decide,
    utf8_roundTrip.2.1 [0xE2, 0x82, 0xAC]
      (.append (.three (by decide) (by decide) ⟨by decide, by decide⟩ (by decide) (by decide)
        ⟨by decide, by decide⟩) .nil)⟩

/-! ## Sequences that are not well formed -/

/-- The bytes that a first byte announces. -/
def announced (c : Char) : ℕ :=
  if 0xC0 ≤ c.toNat ∧ c.toNat ≤ 0xDF then 1
  else if 0xE0 ≤ c.toNat ∧ c.toNat ≤ 0xEF then 2
  else if 0xF0 ≤ c.toNat ∧ c.toNat ≤ 0xF7 then 3
  else 0

/-- A byte that is no ASCII character and announces no others. -/
def InsideByte (c : Char) : Prop :=
  0x80 ≤ c.toNat ∧ announced c = 0

/-- The turns of `utf8_to_wstring`, each with the bytes that it reads and the unit it adds. -/
def utf8Turns : ℕ → List Char → List (List Char × UInt32)
  | 0, _ => []
  | _, [] => []
  | turns + 1, c :: cs =>
    let byte : UInt32 := .ofNat c.toNat
    let rest (k : ℕ) : UInt32 := bitsOf (cs.getD k '0') 0x3F
    if byte < 0x80 then ([c], byte) :: utf8Turns turns cs
    else if byte &&& 0xE0 = 0xC0 ∧ 1 ≤ cs.length then
      (c :: cs.take 1, (byte &&& 0x1F) <<< 6 ||| rest 0) :: utf8Turns turns (cs.drop 1)
    else if byte &&& 0xF0 = 0xE0 ∧ 2 ≤ cs.length then
      (c :: cs.take 2, (byte &&& 0x0F) <<< 12 ||| rest 0 <<< 6 ||| rest 1) ::
        utf8Turns turns (cs.drop 2)
    else if byte &&& 0xF8 = 0xF0 ∧ 3 ≤ cs.length then
      (c :: cs.take 3, (byte &&& 0x07) <<< 18 ||| rest 0 <<< 12 ||| rest 1 <<< 6 ||| rest 2) ::
        utf8Turns turns (cs.drop 3)
    else ([c], byte) :: utf8Turns turns cs

/-- The units of the turns are what `utf8_to_wstring` returns. -/
theorem map_snd_utf8Turns (turns : ℕ) (cs : List Char) :
    (utf8Turns turns cs).map Prod.snd = utf8Loop turns cs := by
  induction turns generalizing cs with
  | zero => rfl
  | succ turns ih =>
    cases cs with
    | nil => rfl
    | cons c cs =>
      rw [utf8Turns, utf8Loop]
      split_ifs <;> exact congrArg _ (ih _)

/-- The bytes of the turns are those of the string. -/
theorem flatMap_fst_utf8Turns {turns : ℕ} {cs : List Char} (h : cs.length ≤ turns) :
    (utf8Turns turns cs).flatMap Prod.fst = cs := by
  induction turns generalizing cs with
  | zero =>
    rw [List.eq_nil_of_length_eq_zero (Nat.le_zero.mp h)]
    rfl
  | succ turns ih =>
    cases cs with
    | nil => rfl
    | cons c cs =>
      rw [List.length_cons] at h
      have hdrop (n : ℕ) : c :: cs.take n ++ (utf8Turns turns (cs.drop n)).flatMap Prod.fst =
          c :: cs := by
        rw [ih (by rw [List.length_drop]; omega), List.cons_append, List.take_append_drop]
      rw [utf8Turns]
      split_ifs
      · exact hdrop 0
      · exact hdrop 1
      · exact hdrop 2
      · exact hdrop 3
      · exact hdrop 0

/-- Every ASCII byte is a character of its own, and no character is read across an ASCII byte or
the first byte of another. -/
def KeepsText (str : List Char) : Prop :=
  (∀ turn ∈ utf8Turns str.length str, ∀ c ∈ turn.1, c.toNat < 0x80 →
    turn = ([c], .ofNat c.toNat)) ∧
  ∀ turn ∈ utf8Turns str.length str, ∀ c ∈ turn.1.tail, InsideByte c

/-- The bytes that a first byte announces, if there are as many, may stand inside a sequence. -/
def FollowsAnnounced (str : List Char) : Prop :=
  ∀ c rest, c :: rest <:+ str → announced c ≤ rest.length →
    ∀ d ∈ rest.take (announced c), InsideByte d

/-- What the masks of `utf8_to_wstring` tell of a byte. -/
theorem byte_masks : ∀ n < 256,
    ((UInt32.ofNat n &&& 0xE0 = 0xC0) ↔ 0xC0 ≤ n ∧ n ≤ 0xDF) ∧
    ((UInt32.ofNat n &&& 0xF0 = 0xE0) ↔ 0xE0 ≤ n ∧ n ≤ 0xEF) ∧
    ((UInt32.ofNat n &&& 0xF8 = 0xF0) ↔ 0xF0 ≤ n ∧ n ≤ 0xF7) ∧
    (UInt32.ofNat n < 0x80 ↔ n < 0x80) := by
  decide +kernel

/-- What a turn reads after a byte : the bytes that it announces, if there are as many. -/
def readAfter (c : Char) (cs : List Char) : ℕ :=
  if announced c ≤ cs.length then announced c else 0

theorem utf8Turns_cons {c : Char} (hc : c.toNat < 256) (turns : ℕ) (cs : List Char) :
    ∃ unit, (c.toNat < 0x80 → unit = .ofNat c.toNat) ∧
      utf8Turns (turns + 1) (c :: cs) =
        (c :: cs.take (readAfter c cs), unit) :: utf8Turns turns (cs.drop (readAfter c cs)) := by
  obtain ⟨htwo, hthree, hfour, hone⟩ := byte_masks c.toNat hc
  have hread {count : ℕ} (h : readAfter c cs = count) (unit : UInt32) :
      (c :: cs.take count, unit) :: utf8Turns turns (cs.drop count) =
        (c :: cs.take (readAfter c cs), unit) :: utf8Turns turns (cs.drop (readAfter c cs)) := by
    rw [h]
  rw [utf8Turns]
  simp only [htwo, hthree, hfour, hone]
  split_ifs with h1 h2 h3 h4
  · exact ⟨_, fun _ => rfl, @hread 0 (by grind [readAfter, announced]) _⟩
  · exact ⟨_, fun h => absurd h h1, @hread 1 (by grind [readAfter, announced]) _⟩
  · exact ⟨_, fun h => absurd h h1, @hread 2 (by grind [readAfter, announced]) _⟩
  · exact ⟨_, fun h => absurd h h1, @hread 3 (by grind [readAfter, announced]) _⟩
  · exact ⟨_, fun h => absurd h h1, @hread 0 (by grind [readAfter, announced]) _⟩

/-- A byte of a turn that announces others is its first. -/
theorem followsAnnounced_of_keepsText {turns : ℕ} {str : List Char}
    (hbytes : ∀ c ∈ str, c.toNat < 256) (hturns : str.length ≤ turns)
    (h : ∀ turn ∈ utf8Turns turns str, ∀ c ∈ turn.1.tail, InsideByte c) :
    FollowsAnnounced str := by
  induction turns generalizing str with
  | zero =>
    intro c rest hsuffix
    rw [List.eq_nil_of_length_eq_zero (Nat.le_zero.mp hturns), List.suffix_nil] at hsuffix
    cases hsuffix
  | succ turns ih =>
    cases str with
    | nil =>
      intro c rest hsuffix
      cases List.suffix_nil.mp hsuffix
    | cons b bs =>
      rw [List.length_cons] at hturns
      obtain ⟨unit, -, hcons⟩ := utf8Turns_cons (hbytes b List.mem_cons_self) turns bs
      rw [hcons, List.forall_mem_cons] at h
      have hleft := ih (fun c hc => hbytes c (List.mem_cons_of_mem _ (List.mem_of_mem_drop hc)))
        (by rw [List.length_drop]; omega) h.2
      intro c rest hsuffix hlength d hd
      rcases List.suffix_cons_iff.mp hsuffix with heq | ⟨pre, hpre⟩
      · -- the first byte of this turn
        cases heq
        refine h.1 d ?_
        rw [readAfter, if_pos hlength]
        exact hd
      · generalize readAfter b bs = count at h hleft
        subst hpre
        by_cases hin : pre.length < count
        · -- a byte within this turn announces none
          have hmem : c ∈ (pre ++ c :: rest).take count := by
            rw [List.take_append]
            refine List.mem_append_right _ ?_
            rw [List.take_cons (by omega)]
            exact List.mem_cons_self
          rw [(h.1 c hmem).2] at hd
          cases hd
        · -- a byte of a later turn
          refine hleft c rest ⟨pre.drop count, ?_⟩ hlength d hd
          rw [List.drop_append_of_le_length (by omega)]

theorem inside_of_followsAnnounced {str : List Char} (h : FollowsAnnounced str)
    (hbytes : ∀ c ∈ str, c.toNat < 256) (turns : ℕ) :
    ∀ turn ∈ utf8Turns turns str, (∀ c ∈ turn.1.tail, InsideByte c) ∧
      ∀ c ∈ turn.1, c.toNat < 0x80 → turn = ([c], .ofNat c.toNat) := by
  induction turns generalizing str with
  | zero => exact List.forall_mem_nil _
  | succ turns ih =>
    cases str with
    | nil => exact List.forall_mem_nil _
    | cons b bs =>
      obtain ⟨unit, hunit, hcons⟩ := utf8Turns_cons (hbytes b List.mem_cons_self) turns bs
      have hinside : ∀ c ∈ bs.take (readAfter b bs), InsideByte c := by
        rw [readAfter]
        split_ifs with hlength
        · exact h b bs List.suffix_rfl hlength
        · exact List.forall_mem_nil _
      rw [hcons, List.forall_mem_cons]
      refine ⟨⟨hinside, fun c hc hascii => ?_⟩, ih (fun c rest hsuffix => ?_) fun c hc => ?_⟩
      · rcases List.mem_cons.mp hc with rfl | hc
        · have hnone : announced c = 0 := by grind [announced]
          rw [readAfter, hnone, ite_self, hunit hascii]
          rfl
        · exact absurd hascii (Nat.not_lt.mpr (hinside c hc).1)
      · exact h c rest (hsuffix.trans ((List.drop_suffix _ _).trans (List.suffix_cons _ _)))
      · exact hbytes c (List.mem_cons_of_mem _ (List.mem_of_mem_drop hc))

theorem toNat_byteString_lt (bytes : List UInt8) : ∀ c ∈ byteString bytes, c.toNat < 256 := by
  intro c hc
  obtain ⟨b, -, rfl⟩ := List.mem_map.mp hc
  rw [toNat_charOfNat b.toNat_lt]
  exact b.toNat_lt

/-- The turns read the whole string and write the whole result. The text around bytes that are
not well formed is kept exactly when every first byte that announces bytes within the string is
followed by as many that may stand there. -/
theorem keepsText_iff_followsAnnounced (bytes : List UInt8) :
    (KeepsText (byteString bytes) ↔ FollowsAnnounced (byteString bytes)) ∧
      let str := byteString bytes
      let turns := utf8Turns str.length str
      turns.flatMap Prod.fst = str ∧ turns.map Prod.snd = utf8ToWstring str := by
  have hbytes := toNat_byteString_lt bytes
  refine ⟨⟨fun h => ?_, fun h => ?_⟩, flatMap_fst_utf8Turns le_rfl, map_snd_utf8Turns _ _⟩
  · exact followsAnnounced_of_keepsText hbytes le_rfl h.2
  · have hinside := inside_of_followsAnnounced h hbytes (byteString bytes).length
    exact ⟨fun turn hturn => (hinside turn hturn).2, fun turn hturn => (hinside turn hturn).1⟩

/-- In Latin-1, `é` before a letter takes the letter with it. -/
theorem not_keepsText_latin : ¬ KeepsText (byteString [0xC9, 0x41]) := by
  intro h
  have hturn := h.1 (byteString [0xC9, 0x41], 0x241) (by decide) 'A' (by decide) (by decide)
  exact absurd hturn (by decide)

end CppLinq
