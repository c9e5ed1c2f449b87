import CppLinq.OdbcReader
import CppLinq.BatchBuffers

/-!
# Arrays of ODBC

`execute_insert_many_batch` of `odbc_utils.h` binds a batch column by column. Pass 1 chooses a C
type and a slot width for a column from all of its rows, and makes an array of a slot for each
row. Pass 2 copies every cell to its slot with an indicator. `OdbcPreparedStatement` binds the
same values one by one (`apply_bindings`).
-/

namespace CppLinq

/-! ## Copies in a vector -/

section Copies

variable {α : Type}

/-- Copy elements to an offset. -/
def copyAt (xs : List α) (offset : ℕ) (ys : List α) : List α :=
  xs.take offset ++ ys ++ xs.drop (offset + ys.length)

/-- Elements from an offset on. -/
def slice (xs : List α) (offset length : ℕ) : List α :=
  (xs.drop offset).take length

/-- A copy leaves the length of the array. -/
theorem length_copyAt {xs ys : List α} {offset : ℕ} (h : offset + ys.length ≤ xs.length) :
    (copyAt xs offset ys).length = xs.length := by
  simp only [copyAt, List.length_append, List.length_take, List.length_drop]
  omega

/-- What was copied is read. -/
theorem slice_copyAt {xs ys : List α} {offset : ℕ} (h : offset + ys.length ≤ xs.length) :
    slice (copyAt xs offset ys) offset ys.length = ys := by
  have htake : (xs.take offset).length = offset := by
    rw [List.length_take]
    omega
  rw [slice, copyAt, List.append_assoc, List.drop_left' htake, List.take_left' rfl]

/-- The rest is unchanged. -/
theorem slice_copyAt_of_disjoint {xs ys : List α} {offset : ℕ} (h : offset + ys.length ≤ xs.length)
    {start length : ℕ} (hdisjoint : start + length ≤ offset ∨ offset + ys.length ≤ start) :
    slice (copyAt xs offset ys) start length = slice xs start length := by
  have htake : (xs.take offset).length = offset := by
    rw [List.length_take]
    omega
  refine List.ext_getElem? fun i => ?_
  rw [slice, slice, List.getElem?_take, List.getElem?_take, List.getElem?_drop, List.getElem?_drop]
  split
  · rename_i hi
    rw [copyAt, List.append_assoc]
    rcases hdisjoint with hbefore | hafter
    · rw [List.getElem?_append_left (by omega), List.getElem?_take_of_lt (by omega)]
    · rw [List.getElem?_append_right (by omega), List.getElem?_append_right (by omega),
        List.getElem?_drop, htake]
      congr 1
      omega
  · rfl

/-- A part of what is read. -/
theorem take_slice (xs : List α) (offset : ℕ) {length length' : ℕ} (h : length' ≤ length) :
    slice xs offset length' = (slice xs offset length).take length' := by
  rw [slice, slice, List.take_take, Nat.min_eq_left h]

/-- What is read before a terminator. -/
theorem slice_of_append {xs ys : List α} {offset : ℕ} {terminator : α}
    (h : slice xs offset (ys ++ [terminator]).length = ys ++ [terminator]) :
    slice xs offset ys.length = ys := by
  have hle : ys.length ≤ (ys ++ [terminator]).length := by
    rw [List.length_append]
    exact Nat.le_add_right _ _
  rw [take_slice xs offset hle, h]
  exact List.take_left' rfl

theorem getElem?_of_slice_one {xs : List α} {offset : ℕ} {x : α} (h : slice xs offset 1 = [x]) :
    xs[offset]? = some x := by
  have hhead := congrArg (·[0]?) h
  simpa only [slice, List.getElem?_take_of_lt Nat.zero_lt_one, List.getElem?_drop, Nat.add_zero,
    List.getElem?_cons_zero] using hhead

end Copies

/-! ## Types -/

/-- The C types that pass 1 chooses, and `SQL_C_DEFAULT` before it does. -/
inductive BatchCType
  | default | sbigint | ubigint | double | bit | char | wchar | binary | date | time | timestamp
  deriving DecidableEq

/-- The SQL types that a batch declares. -/
inductive BatchSqlType
  | bigint | varchar | double | bit | wvarchar | varbinary | numeric | date | time | timestamp
  deriving DecidableEq

/-- The vectors of `ColArrays` that are used. -/
inductive ArrayKind
  | intData | uintData | dblData | bitData | strData | wstrData | blobData | dateData | timeData
  | tsData
  deriving DecidableEq

/-- `DATE_STRUCT`. -/
structure DateStruct where
  year : Int16
  month : UInt16
  day : UInt16
  deriving DecidableEq

/-- `TIME_STRUCT`. -/
structure TimeStruct where
  hour : UInt16
  minute : UInt16
  second : UInt16
  deriving DecidableEq

/-- `TIMESTAMP_STRUCT`. -/
structure TimestampStruct where
  year : Int16
  month : UInt16
  day : UInt16
  hour : UInt16
  minute : UInt16
  second : UInt16
  fraction : UInt32
  deriving DecidableEq

/-- The `DATE_STRUCT` of a date. -/
def SqlDate.struct (v : SqlDate) : DateStruct :=
  ⟨v.year, v.month.toUInt16, v.day.toUInt16⟩

/-- The `TIME_STRUCT` of a time, which has no fraction. -/
def SqlTime.struct (v : SqlTime) : TimeStruct :=
  ⟨v.hour.toUInt16, v.minute.toUInt16, v.second.toUInt16⟩

/-- The `TIMESTAMP_STRUCT` of a timestamp, which has no offset. -/
def SqlTimestamp.struct (v : SqlTimestamp) : TimestampStruct :=
  ⟨v.year, v.month.toUInt16, v.day.toUInt16, v.hour.toUInt16, v.minute.toUInt16,
    v.second.toUInt16, v.fraction⟩

/-- A `bool` as a number. -/
def bitOf (v : Bool) : UInt8 :=
  if v then 1 else 0

/-- The elements of an array. -/
abbrev ArrayKind.Elem : ArrayKind → Type
  | .intData => Int64
  | .uintData => UInt64
  | .dblData => Double
  | .bitData => UInt8
  | .strData => Char
  | .wstrData => UInt16
  | .blobData => UInt8
  | .dateData => DateStruct
  | .timeData => TimeStruct
  | .tsData => TimestampStruct

/-- The vector that is bound for a C type. -/
def BatchCType.kind : BatchCType → ArrayKind
  | .sbigint => .intData
  | .ubigint => .uintData
  | .double => .dblData
  | .bit => .bitData
  | .default | .char => .strData
  | .wchar => .wstrData
  | .binary => .blobData
  | .date => .dateData
  | .time => .timeData
  | .timestamp => .tsData

/-- A number of type `size_t`. -/
def sizeT (n : ℕ) : ℕ :=
  n % 2 ^ 64

/-- The code units of a wide character. -/
def wideUnits (wc : UInt32) : List UInt16 :=
  if wc < 0x10000 then [wc.toUInt16]
  else
    let cp := wc - 0x10000
    [((0xD800 : UInt32) ||| ((cp >>> 10) &&& 0x3FF)).toUInt16,
      ((0xDC00 : UInt32) ||| (cp &&& 0x3FF)).toUInt16]

/-- `wstring_to_sqlwchar`. -/
def wstringToSqlwchar (wstr : List UInt32) : List UInt16 :=
  wstr.flatMap wideUnits ++ [0]

/-! ## Pass 1 -/

/-- What pass 1 knows of a column. -/
structure TypeChoice where
  cType : BatchCType := .default
  sqlType : BatchSqlType := .varchar
  maxLen : ℕ := 1

namespace TypeChoice

/-- A text of a length, with its terminator. -/
def text (t : TypeChoice) (sqlType : BatchSqlType) (length : ℕ) : TypeChoice :=
  ⟨.char, sqlType, max t.maxLen length⟩

/-- A row of a column. -/
def step (t : TypeChoice) : BoundValue → TypeChoice
  | .null => t
  | .int64 _ => { t with cType := .sbigint, sqlType := .bigint }
  | .uint64 v =>
    if v > 0x7FFFFFFFFFFFFFFF then t.text .varchar 25
    else if t.cType ≠ .char then { t with cType := .ubigint, sqlType := .bigint }
    else { t with maxLen := max t.maxLen 25 }
  | .double _ => { t with cType := .double, sqlType := .double }
  | .bool _ => { t with cType := .bit, sqlType := .bit }
  | .string v => t.text .varchar (v.toList.length + 1)
  | .wstring v =>
    ⟨.wchar, .wvarchar, max t.maxLen (1 + (v.map fun wc => if wc ≥ 0x10000 then 2 else 1).sum)⟩
  | .blob v => ⟨.binary, .varbinary, max t.maxLen (if v.length > 0 then v.length else 1)⟩
  | .numeric v => t.text .numeric (v.text.length + 1)
  | .date _ => { t with cType := .date, sqlType := .date }
  | .time _ => { t with cType := .time, sqlType := .time }
  | .timestamp _ => { t with cType := .timestamp, sqlType := .timestamp }
  | .interval v => t.text .varchar (v.text.length + 1)
  | .guid _ => t.text .varchar 37

/-- The choice for the rows of a column. -/
def ofRows (rows : List BoundValue) : TypeChoice :=
  let t := rows.foldl step {}
  if t.cType = .default then { t with cType := .char, sqlType := .varchar } else t

end TypeChoice

/-- `ColArrays`. -/
structure ColArrays where
  data : (kind : ArrayKind) → List kind.Elem
  indicators : List ℤ
  cType : BatchCType
  sqlType : BatchSqlType
  decDigits : ℕ
  colSize : ℕ
  bufStride : ℕ

/-- The elements of a slot. -/
def BatchCType.slotWidth (maxLen : ℕ) : BatchCType → ℕ
  | .char | .wchar | .binary | .default => maxLen
  | _ => 1

/-- The bytes of a slot. -/
def BatchCType.stride (maxLen : ℕ) : BatchCType → ℕ
  | .sbigint | .ubigint | .double => 8
  | .bit => 1
  | .char | .binary | .default => maxLen
  | .wchar => sizeT (maxLen * 2)
  | .date | .time => 6
  | .timestamp => 16

/-- The column size that is declared. -/
def BatchCType.colSize (maxLen : ℕ) (sqlType : BatchSqlType) : BatchCType → ℕ
  | .sbigint => 19
  | .ubigint => 20
  | .double => 53
  | .bit => 1
  | .char | .default =>
    if sqlType = .numeric then 28 else if maxLen > 1 then maxLen - 1 else 1
  | .wchar => if maxLen > 1 then maxLen - 1 else 1
  | .binary => maxLen
  | .date => 10
  | .time => 8
  | .timestamp => 27

/-- The decimal digits that are declared. -/
def BatchCType.decDigits (sqlType : BatchSqlType) : BatchCType → ℕ
  | .char | .default => if sqlType = .numeric then 6 else 0
  | .timestamp => 6
  | _ => 0

/-- What `resize` fills an array with. -/
def ArrayKind.zero : (kind : ArrayKind) → kind.Elem
  | .intData => 0
  | .uintData => 0
  | .dblData => ⟨0⟩
  | .bitData => 0
  | .strData => nul
  | .wstrData => 0
  | .blobData => 0
  | .dateData => ⟨0, 0, 0⟩
  | .timeData => ⟨0, 0, 0⟩
  | .tsData => ⟨0, 0, 0, 0, 0, 0, 0⟩

/-- The arrays of a column after pass 1 : only those of its C type have slots. -/
def makeColumn (rows : List BoundValue) : ColArrays :=
  let t := TypeChoice.ofRows rows
  { data := fun kind =>
      if kind = t.cType.kind then
        List.replicate (sizeT (rows.length * t.cType.slotWidth t.maxLen)) kind.zero
      else []
    indicators := List.replicate rows.length 0
    cType := t.cType
    sqlType := t.sqlType
    decDigits := t.cType.decDigits t.sqlType
    colSize := t.cType.colSize t.maxLen t.sqlType
    bufStride := t.cType.stride t.maxLen }

/-! ## Pass 2 -/

/-- What is copied for a cell : to which vector, which elements, and the indicator. -/
structure CellCopy where
  kind : ArrayKind
  elems : List kind.Elem
  indicator : ℤ

/-- A text with its terminator. -/
def CellCopy.text (cs : List Char) : CellCopy :=
  ⟨.strData, cs ++ [nul], cs.length⟩

/-- The copy of a value that is not NULL. -/
def cellCopy (cType : BatchCType) (bufStride : ℕ) : BoundValue → Option CellCopy
  | .null => none
  | .int64 v => some ⟨.intData, [v], 8⟩
  | .uint64 v =>
    some (if cType = .char then .text (decimal v.toNat) else ⟨.uintData, [v], 8⟩)
  | .double v => some ⟨.dblData, [v], 8⟩
  | .bool v => some ⟨.bitData, [bitOf v], 1⟩
  | .string v => some (.text v.toList)
  | .wstring v =>
    let copied := (wstringToSqlwchar v).take (bufStride / 2)
    some ⟨.wstrData, copied, ((copied.length - 1) * 2 : ℕ)⟩
  | .blob v => some ⟨.blobData, v, v.length⟩
  | .numeric v => some (.text v.text)
  | .date v => some ⟨.dateData, [v.struct], 6⟩
  | .time v => some ⟨.timeData, [v.struct], 6⟩
  | .timestamp v => some ⟨.tsData, [v.struct], 16⟩
  | .interval v => some (.text v.text)
  | .guid v => some (.text v.text)

namespace ColArrays

/-- Where the slot of a row begins. -/
def offset (ca : ColArrays) (row : ℕ) : ArrayKind → ℕ
  | .strData | .blobData => sizeT (row * ca.bufStride)
  | .wstrData => sizeT (row * (ca.bufStride / 2))
  | _ => row

/-- Fill the slot of a row, unless it is out of bounds. -/
def fillCell (ca : ColArrays) (row : ℕ) (v : BoundValue) : Option ColArrays :=
  match cellCopy ca.cType ca.bufStride v with
  | none => some { ca with indicators := ca.indicators.set row sqlNullData }
  | some copy =>
    let start := ca.offset row copy.kind
    if start + copy.elems.length ≤ (ca.data copy.kind).length then
      some { ca with
        data := Function.update ca.data copy.kind (copyAt (ca.data copy.kind) start copy.elems)
        indicators := ca.indicators.set row copy.indicator }
    else none

/-- Fill the slots of rows. -/
def fillRows (ca : ColArrays) : ℕ → List BoundValue → Option ColArrays
  | _, [] => some ca
  | row, v :: rows => (ca.fillCell row v).bind fun ca => ca.fillRows (row + 1) rows

end ColArrays

/-- A column after pass 2. -/
def bindColumn (rows : List BoundValue) : Option ColArrays :=
  (makeColumn rows).fillRows 0 rows

/-- A column of a matrix, of which the rows are one after another. -/
def columnOf (flatParams : List BoundValue) (colCount rowCount c : ℕ) : Option (List BoundValue) :=
  (List.range rowCount).mapM fun row => flatParams[row * colCount + c]?

/-- The arrays of a column of a matrix. The columns have vectors of their own, so that pass 2 can
be read column by column. -/
def bindMatrixColumn (flatParams : List BoundValue) (colCount rowCount c : ℕ) : Option ColArrays :=
  (columnOf flatParams colCount rowCount c).bind bindColumn

/-! ## What the driver reads -/

/-- A value as ODBC gets it. -/
inductive SqlData
  | null
  | int64 (v : Int64)
  | uint64 (v : UInt64)
  | double (v : Double)
  | bit (v : UInt8)
  | text (cs : List Char)
  | wide (units : List UInt16)
  | bytes (bs : List UInt8)
  | date (v : DateStruct)
  | time (v : TimeStruct)
  | timestamp (v : TimestampStruct)

/-- What the driver reads of a row : by its C type, from its slot, as the indicator says. -/
def ColArrays.read (ca : ColArrays) (row : ℕ) : Option SqlData :=
  let ind := ca.indicators.getD row 0
  if ind = sqlNullData then some .null
  else
    match ca.cType with
    | .sbigint => ((ca.data .intData)[row]?).map .int64
    | .ubigint => ((ca.data .uintData)[row]?).map .uint64
    | .double => ((ca.data .dblData)[row]?).map .double
    | .bit => ((ca.data .bitData)[row]?).map .bit
    | .char | .default => some (.text (slice (ca.data .strData) (ca.offset row .strData) ind.toNat))
    | .wchar =>
      some (.wide (slice (ca.data .wstrData) (ca.offset row .wstrData) (ind.toNat / 2)))
    | .binary => some (.bytes (slice (ca.data .blobData) (ca.offset row .blobData) ind.toNat))
    | .date => ((ca.data .dateData)[row]?).map .date
    | .time => ((ca.data .timeData)[row]?).map .time
    | .timestamp => ((ca.data .tsData)[row]?).map .timestamp

/-- A value as it is sent for a C type. -/
def cellData (cType : BatchCType) : BoundValue → SqlData
  | .null => .null
  | .int64 v => .int64 v
  | .uint64 v => if cType = .char then .text (decimal v.toNat) else .uint64 v
  | .double v => .double v
  | .bool v => .bit (bitOf v)
  | .string v => .text v.toList
  | .wstring v => .wide (v.flatMap wideUnits)
  | .blob v => .bytes v
  | .numeric v => .text v.text
  | .date v => .date v.struct
  | .time v => .time v.struct
  | .timestamp v => .timestamp v.struct
  | .interval v => .text v.text
  | .guid v => .text v.text

/-! ## Sizes that pass 1 finds -/

/-- The elements that a value asks of its slot. -/
def BoundValue.slotNeed : BoundValue → ℕ
  | .uint64 _ => 25
  | .string v => v.toList.length + 1
  | .wstring v => (wstringToSqlwchar v).length
  | .blob v => max 1 v.length
  | .numeric v => v.text.length + 1
  | .interval v => v.text.length + 1
  | .guid _ => 37
  | _ => 1

theorem length_wideUnits (wc : UInt32) :
    (wideUnits wc).length = if wc ≥ 0x10000 then 2 else 1 := by
  rw [wideUnits]
  by_cases h : wc < 0x10000
  · rw [if_pos h, if_neg (UInt32.not_le.mpr h)]
    rfl
  · rw [if_neg h, if_pos (UInt32.not_lt.mp h)]
    rfl

/-- Pass 1 counts the units of a wide text. -/
theorem length_wstringToSqlwchar (v : List UInt32) :
    (wstringToSqlwchar v).length =
      1 + (v.map fun wc => if wc ≥ 0x10000 then 2 else 1).sum := by
  rw [wstringToSqlwchar, List.length_append, List.length_flatMap, List.length_singleton,
    Nat.add_comm]
  simp only [length_wideUnits]

namespace TypeChoice

/-- No value makes the slots narrower. -/
theorem maxLen_le_step (t : TypeChoice) (v : BoundValue) : t.maxLen ≤ (t.step v).maxLen := by
  cases v with
  | uint64 v =>
    simp only [step]
    split_ifs <;> simp [text]
  | _ => simp [step, text]

theorem maxLen_step_le {t : TypeChoice} {v : BoundValue} {bound : ℕ} (ht : t.maxLen ≤ bound)
    (hv : v.slotNeed ≤ bound) : (t.step v).maxLen ≤ bound := by
  cases v with
  | uint64 v =>
    simp only [BoundValue.slotNeed] at hv
    simp only [step]
    split_ifs <;> simp [text, ht, hv]
  | wstring v =>
    rw [BoundValue.slotNeed, length_wstringToSqlwchar] at hv
    exact max_le ht hv
  | blob v =>
    simp only [BoundValue.slotNeed, max_le_iff] at hv
    simp only [step]
    split_ifs <;> simp [ht, hv]
  | guid v => exact max_le ht hv
  | _ => simp_all [step, text, BoundValue.slotNeed]

/-- A row of text or bytes has its room. -/
theorem slotNeed_le_step (t : TypeChoice) {v : BoundValue} (hv : ∀ n, v ≠ .uint64 n)
    (h1 : 1 ≤ t.maxLen) : v.slotNeed ≤ (t.step v).maxLen := by
  cases v with
  | uint64 v => exact absurd rfl (hv v)
  | wstring v =>
    rw [BoundValue.slotNeed, length_wstringToSqlwchar]
    exact le_max_right _ _
  | blob v =>
    simp only [step, BoundValue.slotNeed]
    split_ifs with h
    · exact max_le (h1.trans (le_max_left _ _)) (le_max_right _ _)
    · simp_all
  | _ => simp_all [step, text, BoundValue.slotNeed]

theorem maxLen_le_foldl (t : TypeChoice) (rows : List BoundValue) :
    t.maxLen ≤ (rows.foldl step t).maxLen := by
  induction rows generalizing t with
  | nil => exact le_refl _
  | cons v rows ih => exact (t.maxLen_le_step v).trans (ih _)

/-- The slots are no wider than the widest value. -/
theorem maxLen_foldl_le {t : TypeChoice} {rows : List BoundValue} {bound : ℕ}
    (ht : t.maxLen ≤ bound) (hrows : ∀ v ∈ rows, v.slotNeed ≤ bound) :
    (rows.foldl step t).maxLen ≤ bound := by
  induction rows generalizing t with
  | nil => exact ht
  | cons v rows ih =>
    rw [List.forall_mem_cons] at hrows
    exact ih (maxLen_step_le ht hrows.1) hrows.2

/-- Every value has room in its slot. -/
theorem slotNeed_le_foldl {t : TypeChoice} {rows : List BoundValue} (h1 : 1 ≤ t.maxLen)
    {v : BoundValue} (hmem : v ∈ rows) (hv : ∀ n, v ≠ .uint64 n) :
    v.slotNeed ≤ (rows.foldl step t).maxLen := by
  induction rows generalizing t with
  | nil => exact absurd hmem List.not_mem_nil
  | cons w rows ih =>
    rcases List.mem_cons.mp hmem with rfl | hmem
    · exact (slotNeed_le_step t hv h1).trans (maxLen_le_foldl _ _)
    · exact ih (h1.trans (maxLen_le_step t w)) hmem

theorem maxLen_ofRows (rows : List BoundValue) :
    (ofRows rows).maxLen = (rows.foldl step {}).maxLen := by
  simp only [ofRows]
  split_ifs <;> rfl

/-- A slot has room for one byte. -/
theorem one_le_maxLen (rows : List BoundValue) : 1 ≤ (ofRows rows).maxLen := by
  rw [maxLen_ofRows]
  exact maxLen_le_foldl {} rows

end TypeChoice

/-! ## Columns of a class -/

/-- The C type that a value is bound with. A `uint64_t` can be among texts, so it counts as one. -/
def BoundValue.bindClass : BoundValue → BatchCType
  | .null => .default
  | .int64 _ => .sbigint
  | .double _ => .double
  | .bool _ => .bit
  | .uint64 _ | .string _ | .numeric _ | .interval _ | .guid _ => .char
  | .wstring _ => .wchar
  | .blob _ => .binary
  | .date _ => .date
  | .time _ => .time
  | .timestamp _ => .timestamp

/-- The values of a column that are not NULL are of a class. -/
def OfClass (cls : BatchCType) (rows : List BoundValue) : Prop :=
  ∀ v ∈ rows, v ≠ .null → v.bindClass = cls

instance (cls : BatchCType) (rows : List BoundValue) : Decidable (OfClass cls rows) :=
  inferInstanceAs (Decidable (∀ v ∈ rows, v ≠ .null → v.bindClass = cls))

namespace TypeChoice

/-- A row of another class than text sets its C type. -/
theorem cType_step (t : TypeChoice) {v : BoundValue} (hv : v ≠ .null)
    (hclass : v.bindClass ≠ .char) : (t.step v).cType = v.bindClass := by
  cases v with
  | null => exact absurd rfl hv
  | uint64 _ | string _ | numeric _ | interval _ | guid _ => exact absurd rfl hclass
  | _ => rfl

/-- A text sets its C type. -/
theorem cType_step_text (t : TypeChoice) {v : BoundValue} (hclass : v.bindClass = .char)
    (hv : ∀ n, v ≠ .uint64 n) : (t.step v).cType = .char := by
  cases v with
  | uint64 n => exact absurd rfl (hv n)
  | string _ | numeric _ | interval _ | guid _ => rfl
  | _ => cases hclass

/-- A `uint64_t` above the range of `int64_t` is sent as a text. -/
theorem cType_step_uint64 (t : TypeChoice) (n : UInt64) :
    (t.step (.uint64 n)).cType =
      if n > 0x7FFFFFFFFFFFFFFF ∨ t.cType = .char then .char else .ubigint := by
  simp only [step]
  by_cases hn : n > 0x7FFFFFFFFFFFFFFF
  · rw [if_pos hn, if_pos (.inl hn)]
    rfl
  · by_cases ht : t.cType = .char
    · rw [if_neg hn, if_neg (not_not.mpr ht), if_pos (.inr ht)]
      exact ht
    · rw [if_neg hn, if_pos ht, if_neg (not_or.mpr ⟨hn, ht⟩)]

/-- A C type of the class, or none before the first value. -/
theorem cType_foldl {cls : BatchCType} (hcls : cls ≠ .char) {t : TypeChoice}
    {rows : List BoundValue} (hrows : OfClass cls rows)
    (ht : t.cType = cls ∨ ∃ v ∈ rows, v ≠ .null) : (rows.foldl step t).cType = cls := by
  induction rows generalizing t with
  | nil =>
    obtain ht | ⟨v, hmem, -⟩ := ht
    · exact ht
    · exact absurd hmem List.not_mem_nil
  | cons v rows ih =>
    have hrest : OfClass cls rows := fun w hmem => hrows w (List.mem_cons_of_mem _ hmem)
    refine ih hrest ?_
    by_cases hv : v = .null
    · subst hv
      refine ht.imp_right fun ⟨w, hmem, hw⟩ => ⟨w, ?_, hw⟩
      exact (List.mem_cons.mp hmem).resolve_left hw
    · have hclass := hrows v List.mem_cons_self hv
      rw [← hclass] at hcls
      exact .inl ((cType_step t hv hcls).trans hclass)

/-- A row of a column of texts. -/
theorem cType_step_of_char {t : TypeChoice} (ht : t.cType = .char) {v : BoundValue}
    (hv : v ≠ .null → v.bindClass = .char) : (t.step v).cType = .char := by
  cases v with
  | null => exact ht
  | uint64 n => rw [cType_step_uint64, if_pos (.inr ht)]
  | string _ | numeric _ | interval _ | guid _ => rfl
  | _ => cases hv (fun h => nomatch h)

/-- A column of texts stays one. -/
theorem cType_foldl_of_char {t : TypeChoice} (ht : t.cType = .char) {rows : List BoundValue}
    (hrows : OfClass .char rows) : (rows.foldl step t).cType = .char := by
  induction rows generalizing t with
  | nil => exact ht
  | cons v rows ih =>
    exact ih (cType_step_of_char ht (hrows v List.mem_cons_self))
      fun w hmem => hrows w (List.mem_cons_of_mem _ hmem)

/-- A column of the class of texts is a column of texts once there is a text. -/
theorem cType_foldl_text {t : TypeChoice} {rows : List BoundValue} (hrows : OfClass .char rows)
    {v : BoundValue} (hmem : v ∈ rows) (hv : v ≠ .null) (hn : ∀ n, v ≠ .uint64 n) :
    (rows.foldl step t).cType = .char := by
  obtain ⟨before, after, rfl⟩ := List.append_of_mem hmem
  rw [List.foldl_append, List.foldl_cons]
  refine cType_foldl_of_char (cType_step_text _ (hrows v hmem hv) hn) ?_
  exact fun w hw => hrows w (List.mem_append_right _ (List.mem_cons_of_mem _ hw))

/-- A column of the class of texts is one of texts or of numbers. -/
theorem cType_foldl_cases {t : TypeChoice} {rows : List BoundValue} (hrows : OfClass .char rows)
    (ht : t.cType = .char ∨ t.cType = .ubigint ∨ ∃ v ∈ rows, v ≠ .null) :
    (rows.foldl step t).cType = .char ∨ (rows.foldl step t).cType = .ubigint := by
  induction rows generalizing t with
  | nil =>
    obtain ht | ht | ⟨v, hmem, -⟩ := ht
    · exact .inl ht
    · exact .inr ht
    · exact absurd hmem List.not_mem_nil
  | cons v rows ih =>
    have hrest : OfClass .char rows := fun w hmem => hrows w (List.mem_cons_of_mem _ hmem)
    refine ih hrest ?_
    have hv := hrows v List.mem_cons_self
    cases v with
    | null =>
      refine ht.imp_right (Or.imp_right fun ⟨w, hmem, hw⟩ => ⟨w, ?_, hw⟩)
      exact (List.mem_cons.mp hmem).resolve_left hw
    | uint64 n =>
      rw [cType_step_uint64]
      split_ifs
      · exact .inl rfl
      · exact .inr (.inl rfl)
    | string _ | numeric _ | interval _ | guid _ => exact .inl rfl
    | _ => cases hv (fun h => nomatch h)

/-- The type that the values choose is declared. -/
theorem cType_ofRows {rows : List BoundValue} {cType : BatchCType}
    (h : (rows.foldl step {}).cType = cType) (hne : cType ≠ .default) :
    (ofRows rows).cType = cType := by
  simp only [ofRows]
  rw [if_neg (h.symm ▸ hne), h]

end TypeChoice

/-! ## Slots wide enough -/

/-- The value is bound as a text. -/
def BoundValue.isText : BoundValue → Bool
  | .string _ | .numeric _ | .interval _ | .guid _ => true
  | _ => false

theorem BoundValue.bindClass_of_isText {v : BoundValue} (h : v.isText = true) :
    v.bindClass = .char := by
  cases v <;> first | rfl | cases h

theorem BoundValue.ne_uint64_of_isText {v : BoundValue} (h : v.isText = true) (n : UInt64) :
    v ≠ .uint64 n := by
  rintro rfl
  cases h

/-- A `uint64_t` is not sent as a text that is wider than its slot : no value of its column is a
text, or a value makes the slots 25 characters wide, or a text is as long. -/
def UintRoom (rows : List BoundValue) : Prop :=
  ∀ n, .uint64 n ∈ rows →
    (∀ w ∈ rows, w.isText = false) ∨
    (∃ m, .uint64 m ∈ rows ∧ m > 0x7FFFFFFFFFFFFFFF) ∨
    (∃ before m after, rows = before ++ .uint64 m :: after ∧ ∃ w ∈ before, w.isText = true) ∨
    ∃ w ∈ rows, w.isText = true ∧ (decimal n.toNat).length + 1 ≤ w.slotNeed

/-- The slots of a C type hold a value. -/
def FitsSlot (cType : BatchCType) (maxLen : ℕ) : BoundValue → Prop
  | .null => True
  | .int64 _ => cType = .sbigint
  | .uint64 n => cType = .ubigint ∨ cType = .char ∧ (decimal n.toNat).length + 1 ≤ maxLen
  | .double _ => cType = .double
  | .bool _ => cType = .bit
  | .string v => cType = .char ∧ v.toList.length + 1 ≤ maxLen
  | .wstring v => cType = .wchar ∧ (wstringToSqlwchar v).length ≤ maxLen
  | .blob v => cType = .binary ∧ v.length ≤ maxLen
  | .numeric v => cType = .char ∧ v.text.length + 1 ≤ maxLen
  | .date _ => cType = .date
  | .time _ => cType = .time
  | .timestamp _ => cType = .timestamp
  | .interval v => cType = .char ∧ v.text.length + 1 ≤ maxLen
  | .guid v => cType = .char ∧ v.text.length + 1 ≤ maxLen

theorem SqlGuid.length_text (v : SqlGuid) : v.text.length = 36 := by
  have hsnd : v.bytes.toList.zipIdx.map Prod.snd = List.range' 0 16 := by
    rw [List.zipIdx_map_snd, Vector.length_toList]
  have hlengths (p : UInt8 × ℕ) :
      ((if p.2 = 4 ∨ p.2 = 6 ∨ p.2 = 8 ∨ p.2 = 10 then ['-'] else []) ++ hexByte p.1).length =
        if p.2 = 4 ∨ p.2 = 6 ∨ p.2 = 8 ∨ p.2 = 10 then 3 else 2 := by
    split_ifs <;> rfl
  have hsum := congrArg (fun indices : List ℕ =>
    (indices.map fun i => if i = 4 ∨ i = 6 ∨ i = 8 ∨ i = 10 then 3 else 2).sum) hsnd
  simp only [List.map_map] at hsum
  rw [text, List.length_flatMap]
  simp only [hlengths]
  exact hsum.trans (by decide)

/-- Twenty digits are enough for a 64-bit number. -/
theorem length_decimal_uint64 (n : UInt64) : (decimal n.toNat).length ≤ 20 := by
  have hlt : n.toNat < 10 ^ 20 := n.toNat_lt.trans (by decide)
  exact (Nat.length_toDigits_le_iff (by decide) (by decide)).mpr hlt

namespace TypeChoice

theorem cType_foldl_ne_char {t : TypeChoice} (ht : t.cType ≠ .char) {rows : List BoundValue}
    (hrows : ∀ v ∈ rows, v.isText = false ∧ ∀ n, v = .uint64 n → ¬ n > 0x7FFFFFFFFFFFFFFF) :
    (rows.foldl step t).cType ≠ .char := by
  induction rows generalizing t with
  | nil => exact ht
  | cons v rows ih =>
    rw [List.forall_mem_cons] at hrows
    refine ih ?_ hrows.2
    cases v with
    | uint64 n =>
      rw [cType_step_uint64, if_neg (not_or.mpr ⟨hrows.1.2 n rfl, ht⟩)]
      exact fun h => nomatch h
    | null => exact ht
    | string _ | numeric _ | interval _ | guid _ => cases hrows.1.1
    | _ => exact fun h => nomatch h

/-- A large number makes room for every number. -/
theorem le_maxLen_of_large {rows : List BoundValue} {m : UInt64} (hmem : .uint64 m ∈ rows)
    (hm : m > 0x7FFFFFFFFFFFFFFF) (t : TypeChoice) : 25 ≤ (rows.foldl step t).maxLen := by
  obtain ⟨before, after, rfl⟩ := List.append_of_mem hmem
  rw [List.foldl_append, List.foldl_cons]
  refine le_trans ?_ (maxLen_le_foldl _ after)
  simp only [step, if_pos hm]
  exact le_max_right _ _

/-- So does a number after a text. -/
theorem le_maxLen_of_after {before after : List BoundValue} {m : UInt64} {t : TypeChoice}
    (hbefore : (before.foldl step t).cType = .char) :
    25 ≤ ((before ++ .uint64 m :: after).foldl step t).maxLen := by
  rw [List.foldl_append, List.foldl_cons]
  refine le_trans ?_ (maxLen_le_foldl _ after)
  simp only [step, hbefore]
  split_ifs
  · exact le_max_right _ _
  · exact absurd rfl ‹_›
  · exact le_max_right _ _

/-- Room for a number that is sent as a text. -/
theorem le_maxLen_of_uintRoom {rows : List BoundValue} (hclass : OfClass .char rows)
    (hroom : UintRoom rows) {n : UInt64} (hmem : .uint64 n ∈ rows)
    (hchar : (rows.foldl step {}).cType = .char) :
    (decimal n.toNat).length + 1 ≤ (rows.foldl step {}).maxLen := by
  have hdigits := length_decimal_uint64 n
  have hlarge : ∀ m, .uint64 m ∈ rows → m > 0x7FFFFFFFFFFFFFFF →
      (decimal n.toNat).length + 1 ≤ (rows.foldl step {}).maxLen := by
    intro m hm hgt
    have hle := le_maxLen_of_large hm hgt {}
    omega
  obtain hnone | ⟨m, hm, hgt⟩ | ⟨before, m, after, rfl, w, hw, htext⟩ | ⟨w, hw, htext, hle⟩ :=
    hroom n hmem
  · by_contra hfew
    refine @cType_foldl_ne_char {} (by decide) rows (fun v hv => ⟨hnone v hv, ?_⟩) hchar
    rintro m rfl hgt
    exact hfew (hlarge m hv hgt)
  · exact hlarge m hm hgt
  · have hbefores : OfClass .char before := fun v hv => hclass v (List.mem_append_left _ hv)
    have hbefore := @cType_foldl_text {} before hbefores w hw
      (fun h => by rw [h] at htext; cases htext) (BoundValue.ne_uint64_of_isText htext)
    have hle := @le_maxLen_of_after before after m {} hbefore
    omega
  · exact hle.trans (slotNeed_le_foldl (le_refl _) hw (BoundValue.ne_uint64_of_isText htext))

end TypeChoice

/-- The slots of a column of a class hold its values. -/
theorem fitsSlot_of_class {cls : BatchCType} {rows : List BoundValue} (hclass : OfClass cls rows)
    (hroom : UintRoom rows) {v : BoundValue} (hmem : v ∈ rows) :
    FitsSlot (TypeChoice.ofRows rows).cType (TypeChoice.ofRows rows).maxLen v := by
  by_cases hnull : v = .null
  · subst hnull
    trivial
  have hcls := hclass v hmem hnull
  rw [TypeChoice.maxLen_ofRows]
  by_cases htext : v.isText = true
  · have hchar := BoundValue.bindClass_of_isText htext
    have hnotUint := BoundValue.ne_uint64_of_isText htext
    have htype := @TypeChoice.cType_foldl_text {} rows (hchar ▸ hcls ▸ hclass) v hmem hnull hnotUint
    rw [TypeChoice.cType_ofRows htype (fun h => nomatch h)]
    have hneed := @TypeChoice.slotNeed_le_foldl {} rows (le_refl _) v hmem hnotUint
    cases v with
    | guid v => exact ⟨rfl, v.length_text ▸ hneed⟩
    | string _ | numeric _ | interval _ => exact ⟨rfl, hneed⟩
    | _ => cases htext
  by_cases huint : ∃ n, v = .uint64 n
  · obtain ⟨n, rfl⟩ := huint
    have hchars : OfClass .char rows := (show cls = .char from hcls.symm) ▸ hclass
    obtain hc | hc :=
      @TypeChoice.cType_foldl_cases {} rows hchars (.inr (.inr ⟨_, hmem, hnull⟩))
    · rw [TypeChoice.cType_ofRows hc (fun h => nomatch h)]
      exact .inr ⟨rfl, TypeChoice.le_maxLen_of_uintRoom hchars hroom hmem hc⟩
    · rw [TypeChoice.cType_ofRows hc (fun h => nomatch h)]
      exact .inl rfl
  have hneed := @TypeChoice.slotNeed_le_foldl {} rows (le_refl _) v hmem fun n h => huint ⟨n, h⟩
  have htype (hne : cls ≠ .char) (hne' : cls ≠ .default) : (TypeChoice.ofRows rows).cType = cls :=
    TypeChoice.cType_ofRows (TypeChoice.cType_foldl hne hclass (.inr ⟨v, hmem, hnull⟩)) hne'
  subst hcls
  cases v with
  | null => exact absurd rfl hnull
  | uint64 n => exact absurd ⟨n, rfl⟩ huint
  | string _ | numeric _ | interval _ | guid _ => exact absurd rfl htext
  | wstring v => exact ⟨htype (fun h => nomatch h) (fun h => nomatch h), hneed⟩
  | blob v =>
    exact ⟨htype (fun h => nomatch h) (fun h => nomatch h), (le_max_right _ _).trans hneed⟩
  | _ => exact htype (fun h => nomatch h) (fun h => nomatch h)

end CppLinq
