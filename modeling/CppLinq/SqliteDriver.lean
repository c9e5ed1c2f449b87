import CppLinq.NumericText
import CppLinq.TimePoints
import CppLinq.WideStrings

/-!
# The driver of SQLite

How `driver/sqlite_connection.cpp` binds values to the parameters of a statement, and the getters
of its reader. Sizes of texts and blobs are passed as an `int`, and SQLite refuses those beyond a
limit of its own.
-/

namespace CppLinq

/-- A value in a row of SQLite. -/
inductive Cell
  | null
  | integer (v : Int64)
  | real (v : Double)
  | text (bytes : List Char)
  | blob (bytes : List UInt8)
  deriving DecidableEq

/-- What the driver uses of SQLite : a column of a declared type keeps a value of that type, the
functions `sqlite3_column_*` return what a row holds, and texts and blobs have a largest size. -/
structure Sqlite where
  /-- What a column with a declared type keeps of a value. -/
  kept : String → Cell → Cell
  /-- `SQLITE_LIMIT_LENGTH`, `10 ^ 9` bytes if nobody has changed it. -/
  maxLength : ℕ
  columnInt64 : Cell → Int64
  columnText : Cell → List Char
  columnBlob : Cell → List UInt8
  maxLength_lt : maxLength < 2 ^ 31
  kept_null (type : String) : kept type .null = .null
  kept_integer (v : Int64) : kept "INTEGER" (.integer v) = .integer v
  kept_text (bytes : List Char) : kept "TEXT" (.text bytes) = .text bytes
  kept_blob (bytes : List UInt8) : kept "BLOB" (.blob bytes) = .blob bytes
  columnInt64_integer (v : Int64) : columnInt64 (.integer v) = v
  columnText_text (bytes : List Char) : columnText (.text bytes) = bytes
  columnBlob_blob (bytes : List UInt8) : columnBlob (.blob bytes) = bytes

/-! ## Parameters -/

/-- What `sqlite3_bind_text` takes of a text. One of a negative size ends before its first zero. -/
def takenText (bytes : List Char) : List Char :=
  if intSize bytes.length < 0 then bytes.takeWhile (· ≠ Char.ofNat 0)
  else bytes.take (intSize bytes.length).toNat

section

variable (db : Sqlite)

/-- `sqlite3_bind_text`. A text that is too long is refused, and `bind` throws. -/
def sqliteBindText (bytes : List Char) : Option Cell :=
  if (takenText bytes).length ≤ db.maxLength then some (.text (takenText bytes)) else none

/-- `sqlite3_bind_blob`, which is undefined for a negative size. -/
def sqliteBindBlob (bytes : List UInt8) : Option Cell :=
  if intSize bytes.length < 0 then none
  else if (bytes.take (intSize bytes.length).toNat).length ≤ db.maxLength then
    some (.blob (bytes.take (intSize bytes.length).toNat))
  else none

/-- `SqlitePreparedStatement::bind`, and nothing if it throws. -/
def bindCell : BoundValue → Option Cell
  | .null => some .null
  | .int64 v => some (.integer v)
  | .uint64 v => some (.integer v.toInt64)
  | .double v => some (.real v)
  | .string v => sqliteBindText db v.toList
  | .wstring v => sqliteBindText db (wstringToUtf8 v)
  | .bool v => some (.integer (if v then 1 else 0))
  | .blob v => sqliteBindBlob db v
  | .numeric v => sqliteBindText db v.text
  | .date v => sqliteBindText db v.text
  | .time v => sqliteBindText db v.text
  | .timestamp v => sqliteBindText db v.text
  | .interval v => sqliteBindText db v.text
  | .guid v => sqliteBindText db v.text

end

/-- The bytes that `bind` passes for a value. -/
def BoundValue.byteSize : BoundValue → ℕ
  | .null | .int64 _ | .uint64 _ | .double _ | .bool _ => 0
  | .string v => v.toList.length
  | .wstring v => (wstringToUtf8 v).length
  | .blob v => v.length
  | .numeric v => v.text.length
  | .date v => v.text.length
  | .time v => v.text.length
  | .timestamp v => v.text.length
  | .interval v => v.text.length
  | .guid v => v.text.length

/-- What SQLite takes of a text, by its length. -/
theorem takenText_of_low {bytes : List Char} (h : bytes.length % 2 ^ 32 < 2 ^ 31) :
    takenText bytes = bytes.take (bytes.length % 2 ^ 32) := by
  rw [takenText, intSize_of_low h, if_neg (by omega), Int.toNat_natCast]

theorem takenText_of_high {bytes : List Char} (h : 2 ^ 31 ≤ bytes.length % 2 ^ 32) :
    takenText bytes = bytes.takeWhile (· ≠ Char.ofNat 0) :=
  if_pos (intSize_of_high h)

/-- A text below 2 GiB is taken whole. -/
theorem takenText_of_lt {bytes : List Char} (h : bytes.length < 2 ^ 31) :
    takenText bytes = bytes := by
  have hmod : bytes.length % 2 ^ 32 = bytes.length := Nat.mod_eq_of_lt (by omega)
  rw [takenText_of_low (by omega), hmod, List.take_length]

section

variable {db : Sqlite}

/-- A text within the limit is bound as it is. -/
theorem sqliteBindText_of_le {bytes : List Char} (h : bytes.length ≤ db.maxLength) :
    sqliteBindText db bytes = some (.text bytes) := by
  rw [sqliteBindText, takenText_of_lt (Nat.lt_of_le_of_lt h db.maxLength_lt), if_pos h]

/-- A text beyond the limit is refused if an `int` can hold its size. -/
theorem sqliteBindText_eq_none {bytes : List Char} (h : db.maxLength < bytes.length)
    (hsize : bytes.length < 2 ^ 31) : sqliteBindText db bytes = none := by
  rw [sqliteBindText, takenText_of_lt hsize, if_neg (Nat.not_le.mpr h)]

/-- A text beyond the limit is refused, or a part of it is bound : `2 ^ 32` bytes or more are left
out, or what follows its first zero. -/
theorem sqliteBindText_of_lt {bytes : List Char} (h : db.maxLength < bytes.length) :
    sqliteBindText db bytes = none ∨
      (∃ n, n + 2 ^ 32 ≤ bytes.length ∧ sqliteBindText db bytes = some (.text (bytes.take n))) ∨
      (Char.ofNat 0 ∈ bytes ∧
        sqliteBindText db bytes = some (.text (bytes.takeWhile (· ≠ Char.ofNat 0)))) := by
  rw [sqliteBindText]
  split
  · rename_i hle
    by_cases hlow : bytes.length % 2 ^ 32 < 2 ^ 31
    · rw [takenText_of_low hlow] at hle ⊢
      rw [List.length_take] at hle
      exact .inr (.inl ⟨bytes.length % 2 ^ 32, by omega, rfl⟩)
    · rw [takenText_of_high (by omega)] at hle ⊢
      refine .inr (.inr ⟨?_, rfl⟩)
      by_contra hzero
      have hall : bytes.takeWhile (· ≠ Char.ofNat 0) = bytes :=
        List.takeWhile_eq_self_iff.mpr fun c hc => decide_eq_true fun heq => hzero (heq ▸ hc)
      rw [hall] at hle
      omega
  · exact .inl rfl

/-- What is bound of a text is within the limit. -/
theorem length_le_of_sqliteBindText {bytes part : List Char}
    (h : sqliteBindText db bytes = some (.text part)) : part.length ≤ db.maxLength := by
  rw [sqliteBindText] at h
  split at h
  · rename_i hle
    rw [← Cell.text.inj (Option.some.inj h)]
    exact hle
  · contradiction

/-- A blob is bound as it is, or in part, or not at all. -/
theorem sqliteBindBlob_cases (bytes : List UInt8) :
    (bytes.length ≤ db.maxLength ∧ sqliteBindBlob db bytes = some (.blob bytes)) ∨
      (¬ bytes.length ≤ db.maxLength ∧
        (sqliteBindBlob db bytes = none ∨
          ∃ part, sqliteBindBlob db bytes = some (.blob part) ∧ part ≠ bytes)) := by
  have hmax := db.maxLength_lt
  by_cases hlow : bytes.length % 2 ^ 32 < 2 ^ 31
  · have hlength : (bytes.take (bytes.length % 2 ^ 32)).length = bytes.length % 2 ^ 32 := by
      rw [List.length_take]
      exact Nat.min_eq_left (Nat.mod_le _ _)
    have hbind : sqliteBindBlob db bytes = if bytes.length % 2 ^ 32 ≤ db.maxLength then
        some (.blob (bytes.take (bytes.length % 2 ^ 32))) else none := by
      rw [sqliteBindBlob, intSize_of_low hlow, if_neg (by omega), Int.toNat_natCast, hlength]
    by_cases hle : bytes.length ≤ db.maxLength
    · have hmod : bytes.length % 2 ^ 32 = bytes.length := Nat.mod_eq_of_lt (by omega)
      refine .inl ⟨hle, ?_⟩
      rw [hbind, hmod, if_pos hle, List.take_length]
    · refine .inr ⟨hle, ?_⟩
      rw [hbind]
      split
      · refine .inr ⟨_, rfl, fun heq => ?_⟩
        rw [heq] at hlength
        omega
      · exact .inl rfl
  · exact .inr ⟨by omega, .inl (if_pos (intSize_of_high (by omega)))⟩

end

/-! ## Texts of a bounded size -/

theorem length_padded_le {w n : ℕ} (hn : n < 10 ^ 10) (hw : w ≤ 10) :
    (padded w (decimal n)).length ≤ 10 := by
  have hlength := Nat.toDigits_length 10 n 10 (by omega) hn
  rw [padded, List.length_append, List.length_replicate, decimal]
  omega

theorem length_clockText_le {hour minute second : ℕ} (hhour : hour < 10 ^ 10)
    (hminute : minute < 10 ^ 10) (hsecond : second < 10 ^ 10) :
    (clockText hour minute second).length ≤ 32 := by
  have h₁ := length_padded_le hhour (by omega : 2 ≤ 10)
  have h₂ := length_padded_le hminute (by omega : 2 ≤ 10)
  have h₃ := length_padded_le hsecond (by omega : 2 ≤ 10)
  simp only [clockText, List.length_append, List.length_singleton]
  omega

theorem lt_of_uint32 (n : UInt32) : n.toNat < 10 ^ 10 :=
  Nat.lt_trans n.toNat_lt (by decide)

theorem lt_of_uint8 (n : UInt8) : n.toNat < 10 ^ 10 :=
  Nat.lt_trans n.toNat_lt (by decide)

theorem length_fractionText_le (fraction : UInt32) : (fractionText fraction).length ≤ 11 := by
  have h := length_padded_le (lt_of_uint32 fraction) (by omega : 9 ≤ 10)
  unfold fractionText
  split
  · rw [List.length_cons]
    omega
  · exact Nat.zero_le _

theorem length_offsetText_le (z : Int16) : (offsetText z).length ≤ 22 := by
  have habs : z.toInt.natAbs < 10 ^ 10 := by
    have hlt := z.toInt_lt
    have hle := z.le_toInt
    omega
  have h₁ := length_padded_le (by omega : z.toInt.natAbs / 60 < 10 ^ 10) (by omega : 2 ≤ 10)
  have h₂ := length_padded_le (by omega : z.toInt.natAbs % 60 < 10 ^ 10) (by omega : 2 ≤ 10)
  unfold offsetText
  split
  · exact Nat.zero_le _
  · simp only [List.length_append, List.length_cons, List.length_nil]
    omega

theorem length_dateText_le {date : SqlDate} (h : 0 ≤ date.year) : date.text.length ≤ 32 := by
  obtain ⟨hyear, hlt, -⟩ := signedDecimal_year h
  have h₁ := length_padded_le (by omega : date.year.toInt.toNat < 10 ^ 10) (by omega : 4 ≤ 10)
  have h₂ := length_padded_le (lt_of_uint8 date.month) (by omega : 2 ≤ 10)
  have h₃ := length_padded_le (lt_of_uint8 date.day) (by omega : 2 ≤ 10)
  rw [SqlDate.text, hyear]
  simp only [List.length_append, List.length_singleton]
  omega

/-- The texts of dates, times, intervals and GUIDs are short. -/
theorem length_date_le {date : SqlDate} (h : 0 ≤ date.year) : date.text.length ≤ 100 :=
  Nat.le_trans (length_dateText_le h) (by decide)

theorem length_time_le (time : SqlTime) : time.text.length ≤ 100 := by
  have hclock := length_clockText_le (lt_of_uint8 time.hour) (lt_of_uint8 time.minute)
    (lt_of_uint8 time.second)
  have hfraction := length_fractionText_le time.fraction
  rw [SqlTime.text, List.length_append]
  omega

theorem length_timestamp_le {ts : SqlTimestamp} (h : 0 ≤ ts.year) : ts.text.length ≤ 100 := by
  have hdate := @length_dateText_le ⟨ts.year, ts.month, ts.day⟩ h
  have hclock := length_clockText_le (lt_of_uint8 ts.hour) (lt_of_uint8 ts.minute)
    (lt_of_uint8 ts.second)
  have hfraction := length_fractionText_le ts.fraction
  have hoffset := length_offsetText_le ts.tzOffsetMinutes
  simp only [SqlTimestamp.text, List.length_append, List.length_singleton]
  omega

theorem length_interval_le {iv : SqlInterval} (h : iv.IsDaySecond) : iv.text.length ≤ 100 := by
  have hdays := length_padded_le (lt_of_uint32 iv.days) (Nat.zero_le 10)
  have hclock := length_clockText_le (lt_of_uint32 iv.hours) (lt_of_uint32 iv.minutes)
    (lt_of_uint32 iv.seconds)
  have hfraction := length_fractionText_le iv.fraction
  rw [h.text_eq, SqlInterval.daySecondText, List.length_append, List.length_append,
    List.length_cons, List.length_append]
  split <;> simp only [List.length_singleton, List.length_nil] <;> omega

theorem length_flatMap_le {α β : Type*} {f : α → List β} {n : ℕ} (h : ∀ x, (f x).length ≤ n)
    (l : List α) : (l.flatMap f).length ≤ n * l.length := by
  induction l with
  | nil => exact Nat.zero_le _
  | cons x l ih =>
    have hx := h x
    rw [List.flatMap_cons, List.length_append, List.length_cons, Nat.mul_succ]
    omega

theorem length_guid_le (v : SqlGuid) : v.text.length ≤ 100 := by
  have hpiece : ∀ p : UInt8 × ℕ, ((if p.2 = 4 ∨ p.2 = 6 ∨ p.2 = 8 ∨ p.2 = 10 then ['-'] else []) ++
      hexByte p.1).length ≤ 3 := by
    intro p
    rw [List.length_append]
    split
    · exact Nat.le_refl 3
    · exact Nat.le_succ 2
  have hlength := length_flatMap_le hpiece v.bytes.toList.zipIdx
  rw [List.length_zipIdx, Vector.length_toList] at hlength
  exact Nat.le_trans hlength (by decide)

/-! ## The reader -/

namespace SqliteDataReader

variable (db : Sqlite) (c : Cell)

/-- `is_null`. -/
def isNull : Bool :=
  c = .null

/-- `get_int64`. -/
def getInt64 : Int64 :=
  db.columnInt64 c

/-- `get_uint64`. -/
def getUInt64 : UInt64 :=
  (db.columnInt64 c).toUInt64

/-- `get_string`. -/
def getString : List Char :=
  db.columnText c

/-- `get_wstring`. -/
def getWString : List UInt32 :=
  utf8ToWstring (getString db c)

/-- The texts that are true. -/
def trueTexts : List String :=
  ["1", "true", "TRUE", "True", "t", "T", "yes", "YES", "Yes", "y", "Y"]

/-- `get_bool`. -/
def getBool : Bool :=
  match c with
  | .null => false
  | .text _ => .ofList (getString db c) ∈ trueTexts
  | _ => db.columnInt64 c ≠ 0

/-- `get_blob`. -/
def getBlob : List UInt8 :=
  db.columnBlob c

/-- `get_numeric`. -/
def getNumeric : SqlNumeric :=
  if isNull c then .assignString ['0'] else .assignString (getString db c)

/-- `get_date`. -/
def getDate : SqlDate :=
  if isNull c then {} else .fromString (getString db c)

/-- `get_time`. -/
def getTime : SqlTime :=
  if isNull c then {} else .fromString (getString db c)

/-- `get_timestamp`. -/
def getTimestamp : SqlTimestamp :=
  if isNull c then {} else .fromString (getString db c)

/-- `get_interval`. -/
def getInterval : SqlInterval :=
  if isNull c then {} else .fromString (getString db c)

/-- `get_guid`. -/
def getGuid : SqlGuid :=
  if isNull c then ⟨.replicate 16 0⟩ else .fromString (getString db c)

end SqliteDataReader

end CppLinq
