import CppLinq.NumericStruct
import CppLinq.TimePoints

/-!
# Parsers of any text

The parsers of `mapping/data_types.h` and `string_to_numeric_struct`, with the operations in them
that are not defined for every operand : the ends of a string, its parts, the characters at an
index and the arithmetic of an `int`. Each gives `none` where the operation is not defined.
-/

namespace CppLinq

/-! ## Operations -/

namespace Checked

/-- `front()`, which an empty string does not have. -/
def front (s : List Char) : Option Char :=
  s.head?

/-- `back()`, which an empty string does not have. -/
def back (s : List Char) : Option Char :=
  s.getLast?

/-- `erase(begin())`. -/
def eraseFront : List Char → Option (List Char)
  | [] => none
  | _ :: s => some s

/-- `pop_back()`. -/
def popBack (s : List Char) : Option (List Char) :=
  if s.isEmpty then none else some s.dropLast

/-- `substr`, from a position in the string or at its end. -/
def substr (s : List Char) (pos n : ℕ) : Option (List Char) :=
  if pos ≤ s.length then some ((s.drop pos).take n) else none

/-- A result of the arithmetic of an `int`. -/
def int (z : ℤ) : Option ℤ :=
  if -2 ^ 31 ≤ z ∧ z < 2 ^ 31 then some z else none

/-- The character at the front is erased if it is a given one. -/
def eraseSign (sign : Char) (s : List Char) : Option (List Char) := do
  if (← front s) = sign then eraseFront s else return s

/-- `if (s.front() == '-') …; else if (s.front() == '+') s.erase(s.begin());`. -/
def erasePlus (s : List Char) : Option (List Char) := do
  if (← front s) = '-' then return s else eraseSign '+' s

/-- The same, where a minus sign is erased too. -/
def eraseEither (s : List Char) : Option (List Char) := do
  if (← front s) = '-' then eraseFront s else eraseSign '+' s

/-- The loop that erases the blanks at the front, for at most `n` rounds. -/
def trimFront : ℕ → List Char → Option (List Char)
  | 0, s => some s
  | n + 1, s =>
    if s.isEmpty then some s
    else do
      if isSpace (← front s) then trimFront n (← eraseFront s) else return s

/-- The loop that erases the blanks at the back, for at most `n` rounds. -/
def trimBack : ℕ → List Char → Option (List Char)
  | 0, s => some s
  | n + 1, s =>
    if s.isEmpty then some s
    else do
      if isSpace (← back s) then trimBack n (← popBack s) else return s

/-- Of a text that is not empty, `front` may be asked. -/
theorem eraseSign_of_ne_nil {s : List Char} (h : s ≠ []) (sign : Char) :
    eraseSign sign s = some (if s.head? = some sign then s.tail else s) := by
  cases s with
  | nil => contradiction
  | cons c s =>
    have hsign : eraseSign sign (c :: s) = if c = sign then some s else some (c :: s) := rfl
    rw [hsign, List.head?_cons, List.tail_cons]
    by_cases hc : c = sign
    · rw [if_pos hc, if_pos (congrArg some hc)]
    · rw [if_neg hc, if_neg fun heq => hc (Option.some.inj heq)]

theorem erasePlus_of_ne_nil {s : List Char} (h : s ≠ []) :
    erasePlus s = some (if s.head? = some '+' then s.tail else s) := by
  rw [← eraseSign_of_ne_nil h]
  cases s with
  | nil => contradiction
  | cons c s =>
    change (if c = '-' then some (c :: s) else eraseSign '+' (c :: s)) = _
    by_cases hc : c = '-'
    · subst hc
      rfl
    · rw [if_neg hc]

theorem eraseEither_of_ne_nil {s : List Char} (h : s ≠ []) :
    eraseEither s = some (withoutSign s) := by
  cases s with
  | nil => contradiction
  | cons c s =>
    change (if c = '-' then some s else eraseSign '+' (c :: s)) = _
    rw [eraseSign_of_ne_nil h, withoutSign]
    by_cases hc : c = '-'
    · rw [if_pos hc, if_pos (.inl (congrArg some hc))]
      rfl
    · have hne : ¬ (c :: s).head? = some '-' := fun heq => hc (Option.some.inj heq)
      rw [if_neg hc]
      simp only [hne, false_or]

/-- The trimming loops reach no end too far. -/
theorem trimFront_eq : ∀ s : List Char, trimFront s.length s = some (s.dropWhile isSpace)
  | [] => rfl
  | c :: s => by
    have ih := trimFront_eq s
    have hround : trimFront (s.length + 1) (c :: s) =
        if isSpace c then trimFront s.length s else some (c :: s) := rfl
    rw [List.length_cons, hround, ih, List.dropWhile_cons]
    cases isSpace c with
    | false => rfl
    | true => rfl

theorem trimBack_eq (s : List Char) : trimBack s.length s = some (s.rdropWhile isSpace) := by
  induction s using List.reverseRecOn with
  | nil => rfl
  | append_singleton s c ih =>
    have hround : trimBack (s.length + 1) (s ++ [c]) =
        if isSpace c then trimBack s.length s else some (s ++ [c]) := by
      have hempty : (s ++ [c]).isEmpty = false := by simp
      rw [trimBack, hempty, back, popBack, hempty, List.getLast?_concat, List.dropLast_concat]
      rfl
    rw [List.length_append, List.length_singleton, hround, ih, List.rdropWhile_concat]
    cases isSpace c with
    | false => rfl
    | true => rfl

/-- Both loops, as the parsers of numerals begin. -/
def trimBoth (str : List Char) : Option (List Char) := do
  let s ← trimFront str.length str
  trimBack s.length s

theorem trimBoth_eq (str : List Char) : trimBoth str = some (trim str) := by
  rw [trimBoth, trimFront_eq]
  exact trimBack_eq _

end Checked

/-! ## Numerals -/

/-- The sign of a zero is erased. -/
def SqlNumeric.eraseZeroSign (s : List Char) : Option (List Char) :=
  if allZero s ∧ s ≠ [] then Checked.eraseSign '-' s else some s

theorem SqlNumeric.eraseZeroSign_eq (s : List Char) : eraseZeroSign s =
    some (if allZero s ∧ s.head? = some '-' then s.tail else s) := by
  rw [eraseZeroSign]
  cases s with
  | nil => rfl
  | cons c s =>
    rw [Checked.eraseSign_of_ne_nil (List.cons_ne_nil c s)]
    cases allZero (c :: s) with
    | false => rfl
    | true => simp

/-- `SqlNumeric::assign_string`. -/
def SqlNumeric.assignStringChecked (str : List Char) : Option SqlNumeric := do
  let s ← Checked.trimBoth str
  if s.isEmpty then return zero
  let isNegative : Bool := (← Checked.front s) = '-'
  let s ← Checked.erasePlus s
  if s.any Char.isDigit then
    let value ← eraseZeroSign s
    return { value := .ofList value
             precision := (numeralSizes isNegative s).1
             scale := (numeralSizes isNegative s).2
             isNegative := isNegative && !allZero s }
  else return zero

/-- `assign_string` makes no step that is undefined. -/
theorem SqlNumeric.assignStringChecked_eq (str : List Char) :
    assignStringChecked str = some (assignString str) := by
  rw [assignStringChecked, Checked.trimBoth_eq, assignString]
  cases trim str with
  | nil => rfl
  | cons c s =>
    have hnegative : decide ((c :: s).head? = some '-') = decide (c = '-') := by simp
    change (Checked.erasePlus (c :: s)).bind _ = _
    rw [Checked.erasePlus_of_ne_nil (List.cons_ne_nil c s), Option.bind_some]
    simp only [hnegative, eraseZeroSign_eq, Option.bind_eq_bind, Option.bind_some]
    exact (apply_ite some _ _ _).symm

/-! ## GUIDs -/

/-- A byte of a GUID, of two characters at their indices. -/
def hexByteChecked (cs : List Char) (i : ℕ) : Option UInt8 := do
  let high ← cs[i * 2]?
  let low ← cs[i * 2 + 1]?
  return .ofNat (hexVal high * 16 + hexVal low)

/-- A pair of digits within the text is read. -/
theorem hexByteChecked_eq {cs : List Char} {i : ℕ} (h : i * 2 + 1 < cs.length) :
    hexByteChecked cs i = some (hexByteAt cs i) := by
  rw [hexByteChecked, List.getElem?_eq_getElem (Nat.lt_of_succ_lt h), List.getElem?_eq_getElem h,
    hexByteAt, List.getD_eq_getElem?_getD, List.getD_eq_getElem?_getD,
    List.getElem?_eq_getElem (Nat.lt_of_succ_lt h), List.getElem?_eq_getElem h]
  rfl

/-- `SqlGuid::from_string`, with its accesses checked. -/
def SqlGuid.fromStringChecked (cs : List Char) : Option SqlGuid :=
  let hexOnly := cs.filter isXDigit
  if hexOnly.length = 32 then do
    let bytes ← Vector.ofFnM fun i : Fin 16 => hexByteChecked hexOnly i
    return ⟨bytes⟩
  else some ⟨.replicate 16 0⟩

/-- A GUID is read without a step that is undefined. -/
theorem SqlGuid.fromStringChecked_eq (cs : List Char) :
    fromStringChecked cs = some (fromString cs) := by
  rw [fromStringChecked, fromString]
  by_cases hlength : (cs.filter isXDigit).length = 32
  · have hbyte : (fun i : Fin 16 => hexByteChecked (cs.filter isXDigit) i) =
        fun i : Fin 16 => pure (hexByteAt (cs.filter isXDigit) i) := by
      funext i
      exact hexByteChecked_eq (by omega)
    rw [if_pos hlength, if_pos hlength, hbyte, Vector.ofFnM_pure]
    rfl
  · rw [if_neg hlength, if_neg hlength]

/-! ## Timestamps -/

/-- The offset from UTC at the end of a timestamp. -/
def readOffsetChecked (cs : List Char) : Option Int16 :=
  match cs.dropWhile isSpace with
  | sign :: cs =>
    if sign = '+' ∨ sign = '-' then
      match readInt cs with
      | some (h, rest) => do
        let (h, m) := offsetParts h rest
        let minutes ← Checked.int (h * 60)
        let minutes ← Checked.int (minutes + m)
        let offset := Int16.ofInt minutes
        return if sign = '-' then -offset else offset
      | none => some 0
    else some 0
  | [] => some 0

/-- `SqlTimestamp::from_string`, with its accesses checked. -/
def SqlTimestamp.fromStringChecked (cs : List Char) : Option SqlTimestamp :=
  match readTriple (cs.map fun c => if c = 'T' then ' ' else c) with
  | some (y, mo, d, cs) =>
    let ts : SqlTimestamp := { year := .ofInt y, month := byteOf mo, day := byteOf d }
    match readTriple cs with
    | some (h, mi, s, cs) => do
      let (fraction, cs) := readFraction cs
      let tzOffsetMinutes ← readOffsetChecked cs
      return { ts with
        hour := byteOf h
        minute := byteOf mi
        second := byteOf s
        fraction
        tzOffsetMinutes }
    | none => some ts
  | none => some {}

/-- The hours and the minutes that stand behind a sign. -/
def offsetBehindSign (cs : List Char) : Option (ℤ × ℤ) :=
  match cs.dropWhile isSpace with
  | sign :: cs =>
    if sign = '+' ∨ sign = '-' then (readInt cs).map fun (h, rest) => offsetParts h rest else none
  | [] => none

/-- The hours and the minutes of the offset of a timestamp, if it has one after a date and a
time. -/
def timestampOffset (cs : List Char) : Option (ℤ × ℤ) := do
  let (_, _, _, cs) ← readTriple (cs.map fun c => if c = 'T' then ' ' else c)
  let (_, _, _, cs) ← readTriple cs
  offsetBehindSign (readFraction cs).2

/-- Hours that leave room for the minutes. -/
def OffsetFits (hm : ℤ × ℤ) : Prop :=
  -35791394 ≤ hm.1 ∧ hm.1 ≤ 35791394 ∧
    -2147483648 - 60 * hm.1 ≤ hm.2 ∧ hm.2 ≤ 2147483647 - 60 * hm.1

instance (hm : ℤ × ℤ) : Decidable (OffsetFits hm) :=
  inferInstanceAs (Decidable (_ ∧ _ ∧ _ ∧ _))

/-- The minutes of an offset, in the arithmetic of an `int`. -/
theorem offsetMinutes_eq (hm : ℤ × ℤ) : ((Checked.int (hm.1 * 60)).bind fun minutes =>
    Checked.int (minutes + hm.2)) = if OffsetFits hm then some (hm.1 * 60 + hm.2) else none := by
  rw [Checked.int]
  by_cases hhours : -2 ^ 31 ≤ hm.1 * 60 ∧ hm.1 * 60 < 2 ^ 31
  · rw [if_pos hhours, Option.bind_some, Checked.int]
    refine if_congr ?_ rfl rfl
    rw [OffsetFits]
    omega
  · rw [if_neg hhours, if_neg]
    · rfl
    · rw [OffsetFits]
      omega

/-- An offset is read without a step that is undefined exactly if it fits an `int`. -/
theorem readOffsetChecked_eq (cs : List Char) : readOffsetChecked cs =
    if ∀ hm ∈ offsetBehindSign cs, OffsetFits hm then some (readOffset cs) else none := by
  rw [readOffsetChecked, readOffset, offsetBehindSign]
  cases cs.dropWhile isSpace with
  | nil => exact (if_pos fun _ h => absurd h (Option.not_mem_none _)).symm
  | cons sign rest =>
    by_cases hsign : sign = '+' ∨ sign = '-'
    · cases hread : readInt rest with
      | none =>
        simp only [if_pos hsign, hread]
        exact (if_pos fun _ h => absurd h (Option.not_mem_none _)).symm
      | some read =>
        obtain ⟨h, after⟩ := read
        simp only [if_pos hsign, hread, Option.map_some]
        change ((Checked.int ((offsetParts h after).1 * 60)).bind fun minutes =>
          (Checked.int (minutes + (offsetParts h after).2)).bind fun minutes =>
            some (if sign = '-' then -Int16.ofInt minutes else .ofInt minutes)) = _
        rw [← Option.bind_assoc, offsetMinutes_eq]
        by_cases hfits : OffsetFits (offsetParts h after)
        · rw [if_pos hfits, if_pos fun hm heq => Option.some.inj heq ▸ hfits]
          rfl
        · rw [if_neg hfits, if_neg fun hall => hfits (hall _ rfl)]
          rfl
    · simp only [if_neg hsign]
      exact (if_pos fun _ h => absurd h (Option.not_mem_none _)).symm

/-- A timestamp is read so exactly if its offset is. -/
theorem SqlTimestamp.fromStringChecked_eq (cs : List Char) : fromStringChecked cs =
    if ∀ hm ∈ timestampOffset cs, OffsetFits hm then some (fromString cs) else none := by
  rw [fromStringChecked, fromString, timestampOffset]
  cases readTriple (cs.map fun c => if c = 'T' then ' ' else c) with
  | none => exact (if_pos fun _ h => absurd h (Option.not_mem_none _)).symm
  | some date =>
    obtain ⟨y, mo, d, cs⟩ := date
    cases hclock : readTriple cs with
    | none =>
      simp only [hclock, Option.bind_eq_bind, Option.bind_some]
      exact (if_pos fun _ h => absurd h (Option.not_mem_none _)).symm
    | some clock =>
      obtain ⟨h, mi, s, cs⟩ := clock
      simp only [hclock, Option.bind_eq_bind, Option.bind_some, readOffsetChecked_eq]
      by_cases hfits : ∀ hm ∈ offsetBehindSign (readFraction cs).2, OffsetFits hm
      · rw [if_pos hfits, if_pos hfits]
        rfl
      · rw [if_neg hfits, if_neg hfits]
        rfl

/-! ## Intervals -/

/-- What `SqlInterval::from_string` reads after the sign. -/
def SqlInterval.readUnsigned (isNegative : Bool) (s : List Char) : SqlInterval :=
  let iv : SqlInterval := { isNegative }
  let hasDay : Bool := "day".toList <:+: s
  if '-' ∈ s ∧ ':' ∉ s ∧ !hasDay then
    match readPair s with
    | some (y, mo, _) =>
      { iv with type := .yearToMonth, years := .ofInt y, months := .ofInt mo }
    | none => { iv with type := .yearToMonth }
  else if hasDay then
    match readInt s with
    | some (d, cs) => (readWord cs).elim { iv with days := .ofInt d } fun cs =>
      ({ iv with days := .ofInt d } : SqlInterval).readClock cs
    | none => { iv with days := .ofInt (failedInt s) }
  else if ' ' ∈ s then
    match readInt s with
    | some (d, cs) =>
      if (readTriple cs).isSome then ({ iv with days := .ofInt d } : SqlInterval).readClock cs
      else iv
    | none => iv
  else if ':' ∈ s then iv.readClock s
  else iv

/-- `SqlInterval::from_string`, with its accesses and its arithmetic checked. -/
def SqlInterval.fromStringChecked (str : List Char) : Option SqlInterval := do
  if str.isEmpty then return {}
  let s ← Checked.trimFront str.length str
  let isNegative : Bool := (← Checked.front s) = '-'
  let s ← Checked.eraseEither s
  return readUnsigned isNegative s

theorem SqlInterval.fromString_eq (str : List Char) : fromString str =
    let s := str.dropWhile isSpace
    let isNegative : Bool := s.head? = some '-'
    readUnsigned isNegative (if isNegative ∨ s.head? = some '+' then s.tail else s) :=
  rfl

/-- An interval is read so if its text is empty or not blank. -/
theorem SqlInterval.fromStringChecked_eq {str : List Char}
    (h : str = [] ∨ str.dropWhile isSpace ≠ []) :
    fromStringChecked str = some (fromString str) := by
  rcases h with rfl | h
  · rfl
  · have hne : str.isEmpty = false := by
      cases str with
      | nil => contradiction
      | cons c str => rfl
    rw [fromStringChecked, hne, Checked.trimFront_eq, fromString_eq]
    cases hs : str.dropWhile isSpace with
    | nil => contradiction
    | cons c s =>
      change (Checked.eraseEither (c :: s)).bind _ = _
      rw [Checked.eraseEither_of_ne_nil (List.cons_ne_nil c s), withoutSign, Option.bind_some]
      have hnegative : ((c :: s).head? = some '-') = (c = '-') := by simp
      simp only [hnegative, decide_eq_true_eq]
      rfl

/-- Of a blank text, `front` is asked when nothing is left. -/
theorem SqlInterval.fromStringChecked_eq_none {str : List Char} (h : str ≠ [])
    (hblank : str.dropWhile isSpace = []) : fromStringChecked str = none := by
  have hne : str.isEmpty = false := by
    cases str with
    | nil => contradiction
    | cons c str => rfl
  rw [fromStringChecked, hne, Checked.trimFront_eq, hblank]
  rfl

/-! ## Numeric structures -/

/-- The loop that drops digits down to a scale, for at most `n` rounds. -/
def Checked.dropDigits (defaultScale : Int8) : ℕ → List Char → Int8 → Option (List Char × Int8)
  | 0, digits, scale => some (digits, scale)
  | n + 1, digits, scale =>
    if scale > defaultScale ∧ ¬ digits.isEmpty then do
      let digits ← popBack digits
      dropDigits defaultScale n digits (scale - 1)
    else some (digits, scale)

/-- The digits without their point, and the scale. -/
def scaledDigitsChecked (s : List Char) : Option (List Char × Int8) :=
  match s.idxOf? '.' with
  | some dot => do
    let scale := min (s.length - dot - 1) 38
    let whole ← Checked.substr s 0 dot
    let fraction ← Checked.substr s (dot + 1) scale
    return (whole ++ fraction, .ofInt scale)
  | none => some (s, 0)

/-- The end of `assign_string`, with its accesses checked. -/
def rescaleChecked (defaultScale : Int8) (digits : List Char) (scale : Int8) :
    Option (List Char × Int8) :=
  if defaultScale < 0 then some (digits, scale)
  else if scale < defaultScale then
    some (digits ++ List.replicate (defaultScale.toInt - scale.toInt).toNat '0', defaultScale)
  else Checked.dropDigits defaultScale digits.length digits scale

theorem length_zeroVal : (List.replicate maxNumericLen (0 : UInt8)).length = maxNumericLen :=
  List.length_replicate

theorem length_storeDigits_zeroVal (digits : List Char) :
    (storeDigits digits (List.replicate maxNumericLen 0)).length = maxNumericLen := by
  rw [length_storeDigits, length_zeroVal]

/-- `string_to_numeric_struct`. -/
def stringToNumericStructChecked (str : List Char) (defaultPrec : UInt8) (defaultScale : Int8) :
    Option NumericStruct := do
  let s ← Checked.trimBoth str
  if s.isEmpty then return { sign := 1, size_val := length_zeroVal }
  let isNegative : Bool := (← Checked.front s) = '-'
  let unsigned ← Checked.eraseEither s
  let (digits, scale) ← scaledDigitsChecked unsigned
  let (digits, scale) ← rescaleChecked defaultScale digits scale
  return {
    precision := structPrecision defaultPrec digits scale
    scale
    sign := if isNegative then 0 else 1
    val := storeDigits digits (List.replicate maxNumericLen 0)
    size_val := length_storeDigits_zeroVal digits }

/-- The digits and their scale are found without a step that is undefined. -/
theorem scaledDigitsChecked_eq (s : List Char) : scaledDigitsChecked s = some (scaledDigits s) := by
  rw [scaledDigitsChecked, scaledDigits]
  cases hdot : s.idxOf? '.' with
  | none => rfl
  | some dot =>
    have hlt : dot < s.length := (List.findIdx?_eq_some_iff_findIdx_eq.mp hdot).1
    have hwhole : Checked.substr s 0 dot = some (s.take dot) := if_pos (Nat.zero_le _)
    have hfraction : ∀ n, Checked.substr s (dot + 1) n = some ((s.drop (dot + 1)).take n) :=
      fun n => if_pos hlt
    simp only [hwhole, hfraction, Option.bind_eq_bind, Option.bind_some]
    rfl

theorem toInt_sub_one {scale defaultScale : Int8} (h : defaultScale < scale) :
    (scale - 1).toInt = scale.toInt - 1 := by
  have hlt := Int8.lt_iff_toInt_lt.mp h
  have hle := defaultScale.le_toInt
  have hmax := scale.toInt_lt
  rw [Int8.toInt_sub]
  exact Int.bmod_eq_of_le (by simp; omega) (by simp; omega)

/-- The loop stops at the scale, or without digits. -/
theorem dropDigits_eq (defaultScale : Int8) : ∀ (n : ℕ) (digits : List Char) (scale : Int8),
    digits.length = n → defaultScale ≤ scale → Checked.dropDigits defaultScale n digits scale =
      some (digits.take (n - min (scale.toInt - defaultScale.toInt).toNat n),
        scale - .ofInt (min (scale.toInt - defaultScale.toInt).toNat n : ℕ))
  | 0, digits, scale, hlength, _ => by
    rw [List.eq_nil_of_length_eq_zero hlength, Nat.min_zero, List.take_nil]
    simp [Checked.dropDigits]
  | n + 1, digits, scale, hlength, hscale => by
    have hne : digits.isEmpty = false := by
      cases digits with
      | nil => contradiction
      | cons d digits => rfl
    rw [Checked.dropDigits, hne]
    by_cases hlt : defaultScale < scale
    · have hone := toInt_sub_one hlt
      have htoInt := Int8.lt_iff_toInt_lt.mp hlt
      have hle : defaultScale ≤ scale - 1 := by
        rw [Int8.le_iff_toInt_le, hone]
        omega
      have hrest : digits.dropLast.length = n := by
        rw [List.length_dropLast, hlength]
        rfl
      have hmin : min (scale.toInt - defaultScale.toInt).toNat (n + 1) =
          min ((scale - 1).toInt - defaultScale.toInt).toNat n + 1 := by
        rw [hone]
        omega
      rw [if_pos ⟨hlt, Bool.false_ne_true⟩, Checked.popBack, hne]
      change Checked.dropDigits defaultScale n digits.dropLast (scale - 1) = _
      rw [dropDigits_eq defaultScale n _ _ hrest hle, hmin, List.dropLast_eq_take, List.take_take,
        hlength]
      generalize min ((scale - 1).toInt - defaultScale.toInt).toNat n = m
      have hcount : min (n - m) (n + 1 - 1) = n + 1 - (m + 1) := by omega
      have hscale : scale - 1 - Int8.ofInt (m : ℤ) = scale - .ofInt ((m + 1 : ℕ) : ℤ) := by
        rw [Int8.sub_sub, Nat.cast_add, Int8.ofInt_add, Int8.add_comm 1]
        rfl
      rw [hcount, hscale]
    · have hzero : (scale.toInt - defaultScale.toInt).toNat = 0 := by
        have hle := Int8.le_iff_toInt_le.mp hscale
        have hge := mt Int8.lt_iff_toInt_lt.mpr hlt
        omega
      rw [if_neg fun h => hlt h.1, hzero, Nat.zero_min, Nat.sub_zero, ← hlength, List.take_length]
      simp

/-- The digits are brought to the scale of the column without such a step. -/
theorem rescaleChecked_eq (defaultScale : Int8) (digits : List Char) (scale : Int8) :
    rescaleChecked defaultScale digits scale = some (rescale defaultScale digits scale) := by
  rw [rescaleChecked, rescale]
  split
  · rfl
  · split
    · rfl
    · rename_i hlt
      exact dropDigits_eq defaultScale digits.length digits scale rfl (Int8.not_lt.mp hlt)

/-- `string_to_numeric_struct` makes no step that is undefined. -/
theorem stringToNumericStructChecked_eq (str : List Char) (defaultPrec : UInt8)
    (defaultScale : Int8) : stringToNumericStructChecked str defaultPrec defaultScale =
      some (stringToNumericStruct str defaultPrec defaultScale) := by
  rw [stringToNumericStructChecked, Checked.trimBoth_eq, stringToNumericStruct]
  cases trim str with
  | nil => rfl
  | cons c s =>
    have hnegative : ((c :: s).head? = some '-') = (c = '-') := by simp
    change (Checked.eraseEither (c :: s)).bind _ = _
    rw [Checked.eraseEither_of_ne_nil (List.cons_ne_nil c s), Option.bind_some]
    simp only [scaledDigitsChecked_eq, rescaleChecked_eq, Option.bind_eq_bind, Option.bind_some,
      hnegative, decide_eq_true_eq]
    rfl

/-! ## All texts -/

/-- `SqlDate::from_string` reads a stream alone. -/
def SqlDate.fromStringChecked (cs : List Char) : Option SqlDate :=
  some (fromString cs)

/-- `SqlTime::from_string` reads a stream alone. -/
def SqlTime.fromStringChecked (cs : List Char) : Option SqlTime :=
  some (fromString cs)

/-- No parser does what is not defined. -/
structure ParsersDefined (cs : List Char) (defaultPrec : UInt8) (defaultScale : Int8) : Prop where
  numeric : (SqlNumeric.assignStringChecked cs).isSome
  date : (SqlDate.fromStringChecked cs).isSome
  time : (SqlTime.fromStringChecked cs).isSome
  timestamp : (SqlTimestamp.fromStringChecked cs).isSome
  interval : (SqlInterval.fromStringChecked cs).isSome
  guid : (SqlGuid.fromStringChecked cs).isSome
  struct : (stringToNumericStructChecked cs defaultPrec defaultScale).isSome

theorem SqlTimestamp.isSome_fromStringChecked_iff (cs : List Char) :
    (fromStringChecked cs).isSome ↔ ∀ hm ∈ timestampOffset cs, OffsetFits hm := by
  rw [fromStringChecked_eq]
  by_cases hfits : ∀ hm ∈ timestampOffset cs, OffsetFits hm
  · rw [if_pos hfits]
    exact iff_of_true rfl hfits
  · rw [if_neg hfits]
    exact iff_of_false Bool.false_ne_true hfits

/-- A text of blanks has no front when these are erased. -/
theorem SqlInterval.isSome_fromStringChecked_iff (cs : List Char) :
    (fromStringChecked cs).isSome ↔ (cs ≠ [] → ∃ c ∈ cs, isSpace c = false) := by
  have hblank : cs.dropWhile isSpace = [] ↔ ¬ ∃ c ∈ cs, isSpace c = false := by
    rw [List.dropWhile_eq_nil_iff]
    simp
  by_cases hne : cs = []
  · rw [fromStringChecked_eq (.inl hne)]
    exact iff_of_true rfl fun h => absurd hne h
  · by_cases htrim : cs.dropWhile isSpace = []
    · rw [fromStringChecked_eq_none hne htrim]
      exact iff_of_false Bool.false_ne_true fun h => hblank.mp htrim (h hne)
    · rw [fromStringChecked_eq (.inr htrim)]
      exact iff_of_true rfl fun _ => not_not.mp fun h => htrim (hblank.mpr h)

/-- The parsers are defined for every text but for those of blanks alone, and for timestamps whose
offset does not fit. -/
theorem parsersDefined_iff (cs : List Char) (defaultPrec : UInt8) (defaultScale : Int8) :
    ParsersDefined cs defaultPrec defaultScale ↔
      (cs ≠ [] → ∃ c ∈ cs, isSpace c = false) ∧ ∀ hm ∈ timestampOffset cs, OffsetFits hm := by
  constructor
  · intro h
    exact ⟨(SqlInterval.isSome_fromStringChecked_iff cs).mp h.interval,
      (SqlTimestamp.isSome_fromStringChecked_iff cs).mp h.timestamp⟩
  · rintro ⟨hblank, hoffset⟩
    exact {
      numeric := by rw [SqlNumeric.assignStringChecked_eq]; rfl
      date := rfl
      time := rfl
      timestamp := (SqlTimestamp.isSome_fromStringChecked_iff cs).mpr hoffset
      interval := (SqlInterval.isSome_fromStringChecked_iff cs).mpr hblank
      guid := by rw [SqlGuid.fromStringChecked_eq]; rfl
      struct := by rw [stringToNumericStructChecked_eq]; rfl }

/-- A midnight whose offset has too many hours. -/
def manyHours : List Char :=
  ['0', '-', '0', '-', '0', ' ', '0', ':', '0', ':', '0', '+', '9', '9', '9', '9', '9', '9', '9',
    '9', ':', '0']

/-- A blank has no front when it is erased, and 99999999 hours are too many minutes. -/
theorem not_parsersDefined :
    ¬ ParsersDefined [' '] 0 (-1) ∧ ¬ ParsersDefined manyHours 0 (-1) := by
  refine ⟨fun h => ?_, fun h => ?_⟩
  · exact absurd h.interval (by decide)
  · have hfits := (SqlTimestamp.isSome_fromStringChecked_iff manyHours).mp h.timestamp
    exact absurd (hfits (99999999, 0) (by decide)) (by decide)

end CppLinq
