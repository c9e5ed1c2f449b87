import CppLinq.DbContext
import CppLinq.SqliteDriver

/-!
# Entities in SQLite

How an entity becomes a row of a table of SQLite and is read back : the dispatch on the types of
fields of `mapping/row_mapper.h` and `mapping/type_traits.h`, the columns of a table made by
`ensure_table`, the row that `DbContext::insert` writes and the entities of `to_list`.
-/

namespace CppLinq

/-! ## Types of fields -/

/-- `SqlType`. -/
inductive SqlType
  | integer | bigInt | unsignedBigInt | real | decimal | text | wstring | blob | boolean
  | date | time | timestamp | interval | guid
  deriving DecidableEq, Repr

/-- `SqliteDialect::type_name`. -/
def SqlType.sqliteName : SqlType → String
  | .integer | .bigInt | .unsignedBigInt | .boolean => "INTEGER"
  | .real => "REAL"
  | .blob => "BLOB"
  | .decimal | .text | .wstring | .date | .time | .timestamp | .interval | .guid => "TEXT"

/-- The types of fields but for floating-point numbers, and for those that are converted to one
of these first. -/
inductive BaseType
  | bool
  | int8 | int16 | int32 | int64
  | uint8 | uint16 | uint32 | uint64
  | string | wstring | blob | numeric | date | time | timestamp | guid
  /-- `std::chrono::system_clock::time_point`, in nanoseconds. -/
  | timePoint
  /-- `std::chrono::nanoseconds`. -/
  | duration
  deriving DecidableEq, Repr

namespace BaseType

/-- The values of a field. -/
abbrev Val : BaseType → Type
  | bool => Bool
  | int8 => Int8
  | int16 => Int16
  | int32 => Int32
  | int64 => Int64
  | uint8 => UInt8
  | uint16 => UInt16
  | uint32 => UInt32
  | uint64 => UInt64
  | string => String
  | wstring => List UInt32
  | blob => List UInt8
  | numeric => SqlNumeric
  | date => SqlDate
  | time => SqlTime
  | timestamp => SqlTimestamp
  | guid => SqlGuid
  | timePoint => Int64
  | duration => Int64

/-- `sql_type_of`. -/
def sqlType : BaseType → SqlType
  | bool => .boolean
  | int8 | int16 | int32 => .integer
  | int64 => .bigInt
  | uint8 | uint16 | uint32 | uint64 => .unsignedBigInt
  | string => .text
  | wstring => .wstring
  | blob => .blob
  | numeric => .decimal
  | date => .date
  | time => .time
  | timestamp | timePoint => .timestamp
  | guid => .guid
  | duration => .interval

/-- `FieldType{}`. -/
def default : (t : BaseType) → t.Val
  | bool => false
  | int8 => 0
  | int16 => 0
  | int32 => 0
  | int64 => 0
  | uint8 => 0
  | uint16 => 0
  | uint32 => 0
  | uint64 => 0
  | string => ""
  | wstring => []
  | blob => []
  | numeric => {}
  | date => {}
  | time => {}
  | timestamp => {}
  | guid => ⟨.replicate 16 0⟩
  | timePoint => 0
  | duration => 0

/-- `convert_to_bound_value`. -/
def toBoundValue : (t : BaseType) → t.Val → BoundValue
  | bool, v => .bool v
  | int8, v => .int64 v.toInt64
  | int16, v => .int64 v.toInt64
  | int32, v => .int64 v.toInt64
  | int64, v => .int64 v
  | uint8, v => .uint64 v.toUInt64
  | uint16, v => .uint64 v.toUInt64
  | uint32, v => .uint64 v.toUInt64
  | uint64, v => .uint64 v
  | string, v => .string v
  | wstring, v => .wstring v
  | blob, v => .blob v
  | numeric, v => .numeric v
  | date, v => .date v
  | time, v => .time v
  | timestamp, v => .timestamp v
  | guid, v => .guid v
  | timePoint, v => .timestamp (.fromTimePoint v)
  | duration, v => .interval (.fromDuration v)

open SqliteDataReader in
/-- `read_column_value`. -/
def readColumnValue (db : Sqlite) (c : Cell) : (t : BaseType) → t.Val
  | bool => getBool db c
  | int8 => (getInt64 db c).toInt8
  | int16 => (getInt64 db c).toInt16
  | int32 => (getInt64 db c).toInt32
  | int64 => getInt64 db c
  | uint8 => (getUInt64 db c).toUInt8
  | uint16 => (getUInt64 db c).toUInt16
  | uint32 => (getUInt64 db c).toUInt32
  | uint64 => getUInt64 db c
  | string => .ofList (getString db c)
  | wstring => getWString db c
  | blob => getBlob db c
  | numeric => getNumeric db c
  | date => getDate db c
  | time => getTime db c
  | timestamp => getTimestamp db c
  | guid => getGuid db c
  | timePoint => (getTimestamp db c).toTimePoint
  | duration => (getInterval db c).toDuration

/-- The values that a text stands for. -/
def IsValid : (t : BaseType) → t.Val → Prop
  | wstring, v => ∀ cp ∈ v, cp < 0x200000
  | numeric, v => ∃ str, IsDecimal str ∧ v = .assignString str
  | date, v => 0 ≤ v.year
  | time, v => v.fraction.toNat < 10 ^ 9
  | timestamp, v => 0 ≤ v.year ∧ v.fraction.toNat < 10 ^ 9
  | _, _ => True

/-! ## A value in a cell -/

/-- A value of a size is bound to a cell that its column keeps, from which it is read back if its
size is within the limit. Beyond the limit it may also be refused. -/
def Cellwise (db : Sqlite) (t : BaseType) (v : t.Val) (size : ℕ) (bound : Option Cell) : Prop :=
  (bound = none ∧ ¬ size ≤ db.maxLength) ∨
    ∃ c, bound = some c ∧ c ≠ .null ∧ db.kept t.sqlType.sqliteName c = c ∧
      (t.readColumnValue db c = v ↔ size ≤ db.maxLength)

section

variable (db : Sqlite) {t : BaseType} {v : t.Val}

/-- Values of each type come back through their cell, one lemma for each way to bind. -/
theorem cellwise_integer {n : Int64} (htype : t.sqlType.sqliteName = "INTEGER")
    (hread : t.readColumnValue db (.integer n) = v) : Cellwise db t v 0 (some (.integer n)) := by
  refine .inr ⟨_, rfl, nofun, ?_, iff_of_true hread (Nat.zero_le _)⟩
  rw [htype]
  exact db.kept_integer n

/-- A text, of which a part does not read as the value. -/
theorem cellwise_text {bytes : List Char} (htype : t.sqlType.sqliteName = "TEXT")
    (hread : t.readColumnValue db (.text bytes) = v)
    (hpart : ∀ part, db.maxLength < bytes.length → sqliteBindText db bytes = some (.text part) →
      t.readColumnValue db (.text part) ≠ v) :
    Cellwise db t v bytes.length (sqliteBindText db bytes) := by
  have hkept : ∀ part, db.kept t.sqlType.sqliteName (.text part) = .text part := by
    rw [htype]
    exact db.kept_text
  by_cases hle : bytes.length ≤ db.maxLength
  · exact .inr ⟨_, sqliteBindText_of_le hle, nofun, hkept _, iff_of_true hread hle⟩
  · rcases sqliteBindText_of_lt (Nat.not_le.mp hle) with hbind | ⟨n, -, hbind⟩ | ⟨-, hbind⟩
    · exact .inl ⟨hbind, hle⟩
    · exact .inr ⟨_, hbind, nofun, hkept _, iff_of_false (hpart _ (Nat.not_le.mp hle) hbind) hle⟩
    · exact .inr ⟨_, hbind, nofun, hkept _, iff_of_false (hpart _ (Nat.not_le.mp hle) hbind) hle⟩

/-- A short text is bound as it is, or refused. -/
theorem cellwise_shortText {bytes : List Char} (htype : t.sqlType.sqliteName = "TEXT")
    (hlength : bytes.length ≤ 100) (hread : t.readColumnValue db (.text bytes) = v) :
    Cellwise db t v bytes.length (sqliteBindText db bytes) := by
  refine cellwise_text db htype hread fun part hlt hbind => ?_
  rw [sqliteBindText_eq_none hlt (by omega)] at hbind
  contradiction

end

theorem cellwise_string (db : Sqlite) (v : String) :
    Cellwise db string v v.toList.length (sqliteBindText db v.toList) := by
  have hread : ∀ bytes, string.readColumnValue db (.text bytes) = .ofList bytes := fun bytes =>
    congrArg String.ofList (db.columnText_text bytes)
  refine cellwise_text db rfl ((hread _).trans String.ofList_toList) fun part hlt hbind heq => ?_
  have hle := length_le_of_sqliteBindText hbind
  rw [← heq, hread, String.toList_ofList] at hlt
  exact absurd hle (Nat.not_le.mpr hlt)

theorem cellwise_wstring (db : Sqlite) {v : List UInt32} (h : ∀ cp ∈ v, cp < 0x200000) :
    Cellwise db wstring v (wstringToUtf8 v).length (sqliteBindText db (wstringToUtf8 v)) := by
  have hread : ∀ bytes, wstring.readColumnValue db (.text bytes) = utf8ToWstring bytes :=
    fun bytes => congrArg utf8ToWstring (db.columnText_text bytes)
  refine cellwise_text db rfl ((hread _).trans (utf8ToWstring_wstringToUtf8 h))
    fun part hlt hbind heq => ?_
  rw [hread] at heq
  rcases sqliteBindText_of_lt hlt with hnone | ⟨n, hn, htake⟩ | ⟨hzero, htake⟩
  · rw [hnone] at hbind
    contradiction
  · rw [htake, Option.some.injEq, Cell.text.injEq] at hbind
    exact utf8ToWstring_take_ne h hn (hbind ▸ heq)
  · have hpart : ∀ cp ∈ v.takeWhile (· ≠ 0), cp < 0x200000 := fun cp hcp =>
      h cp ((List.takeWhile_sublist _).subset hcp)
    rw [htake, Option.some.injEq, Cell.text.injEq, takeWhile_wstringToUtf8] at hbind
    rw [← hbind, utf8ToWstring_wstringToUtf8 hpart] at heq
    have hall := takeWhile_wstringToUtf8 v
    rw [heq, List.takeWhile_eq_self_iff] at hall
    exact absurd rfl (of_decide_eq_true (hall _ hzero))

theorem cellwise_numeric (db : Sqlite) {v : SqlNumeric}
    (h : ∃ str, IsDecimal str ∧ v = .assignString str) :
    Cellwise db numeric v v.text.length (sqliteBindText db v.text) := by
  obtain ⟨str, hstr, rfl⟩ := h
  have hread : ∀ bytes, numeric.readColumnValue db (.text bytes) = .assignString bytes :=
    fun bytes => congrArg SqlNumeric.assignString (db.columnText_text bytes)
  refine cellwise_text db rfl ((hread _).trans (SqlNumeric.assignString_text hstr))
    fun part hlt hbind heq => ?_
  have hle := length_le_of_sqliteBindText hbind
  have hvalue := SqlNumeric.length_value_assignString part
  rw [← hread, heq] at hvalue
  by_cases hzero : (SqlNumeric.assignString str).text.length < 2 ^ 31
  · rw [sqliteBindText_eq_none hlt hzero] at hbind
    contradiction
  · rw [SqlNumeric.text] at hzero hlt
    split at hzero
    · exact hzero (by decide)
    · rename_i hne
      rw [if_neg hne] at hlt
      omega

theorem cellwise_blob (db : Sqlite) (v : List UInt8) :
    Cellwise db blob v v.length (sqliteBindBlob db v) := by
  rcases sqliteBindBlob_cases v with ⟨hle, hbind⟩ | ⟨hle, hbind | ⟨part, hbind, hne⟩⟩
  · exact .inr ⟨_, hbind, nofun, db.kept_blob v, iff_of_true (db.columnBlob_blob v) hle⟩
  · exact .inl ⟨hbind, hle⟩
  · refine .inr ⟨_, hbind, nofun, db.kept_blob part, iff_of_false (fun heq => hne ?_) hle⟩
    exact (db.columnBlob_blob part).symm.trans heq

/-- Every type of fields. -/
theorem cellwise (db : Sqlite) (t : BaseType) {v : t.Val} (h : t.IsValid v) :
    Cellwise db t v (t.toBoundValue v).byteSize (bindCell db (t.toBoundValue v)) := by
  have hinteger := db.columnInt64_integer
  have htext := db.columnText_text
  cases t with
  | bool =>
    refine cellwise_integer db rfl ?_
    have hread : ∀ n, readColumnValue db (.integer n) bool = decide (n ≠ 0) := fun n =>
      congrArg (fun n => decide (n ≠ (0 : Int64))) (hinteger n)
    rw [hread]
    cases v <;> rfl
  | int8 =>
    refine cellwise_integer db rfl ?_
    rw [readColumnValue, SqliteDataReader.getInt64, hinteger, Int8.toInt8_toInt64]
  | int16 =>
    refine cellwise_integer db rfl ?_
    rw [readColumnValue, SqliteDataReader.getInt64, hinteger, Int16.toInt16_toInt64]
  | int32 =>
    refine cellwise_integer db rfl ?_
    rw [readColumnValue, SqliteDataReader.getInt64, hinteger, Int32.toInt32_toInt64]
  | int64 => exact cellwise_integer db rfl (hinteger v)
  | uint8 =>
    refine cellwise_integer db rfl ?_
    rw [readColumnValue, SqliteDataReader.getUInt64, hinteger, UInt64.toUInt64_toInt64,
      UInt8.toUInt8_toUInt64]
  | uint16 =>
    refine cellwise_integer db rfl ?_
    rw [readColumnValue, SqliteDataReader.getUInt64, hinteger, UInt64.toUInt64_toInt64,
      UInt16.toUInt16_toUInt64]
  | uint32 =>
    refine cellwise_integer db rfl ?_
    rw [readColumnValue, SqliteDataReader.getUInt64, hinteger, UInt64.toUInt64_toInt64,
      UInt32.toUInt32_toUInt64]
  | uint64 =>
    refine cellwise_integer db rfl ?_
    rw [readColumnValue, SqliteDataReader.getUInt64, hinteger, UInt64.toUInt64_toInt64]
  | string => exact cellwise_string db v
  | wstring => exact cellwise_wstring db h
  | blob => exact cellwise_blob db v
  | numeric => exact cellwise_numeric db h
  | date =>
    refine cellwise_shortText db rfl (length_date_le h) ?_
    exact (congrArg SqlDate.fromString (htext _)).trans (SqlDate.fromString_text h)
  | time =>
    refine cellwise_shortText db rfl (length_time_le v) ?_
    exact (congrArg SqlTime.fromString (htext _)).trans (SqlTime.fromString_text h)
  | timestamp =>
    refine cellwise_shortText db rfl (length_timestamp_le h.1) ?_
    exact (congrArg SqlTimestamp.fromString (htext _)).trans (SqlTimestamp.fromString_text h.1 h.2)
  | guid =>
    refine cellwise_shortText db rfl (length_guid_le v) ?_
    exact (congrArg SqlGuid.fromString (htext _)).trans (SqlGuid.fromString_text v)
  | timePoint =>
    refine cellwise_shortText db rfl
      (length_timestamp_le (SqlTimestamp.nonneg_year_fromTimePoint v)) ?_
    exact (congrArg (SqlTimestamp.toTimePoint ∘ SqlTimestamp.fromString) (htext _)).trans
      (SqlTimestamp.toTimePoint_text v)
  | duration =>
    refine cellwise_shortText db rfl (length_interval_le (SqlInterval.isDaySecond_fromDuration v))
      ?_
    exact (congrArg (SqlInterval.toDuration ∘ SqlInterval.fromString) (htext _)).trans
      (SqlInterval.toDuration_text v)

end BaseType

/-- The type of a field : a type, or a `std::optional` of it. -/
inductive FieldType
  | plain (base : BaseType)
  | optional (base : BaseType)
  deriving DecidableEq, Repr

namespace FieldType

/-- The values of a field. -/
abbrev Val : FieldType → Type
  | plain base => base.Val
  | optional base => Option base.Val

/-- `sql_type_of`. -/
def sqlType : FieldType → SqlType
  | plain base => base.sqlType
  | optional base => base.sqlType

/-- The field is an optional. -/
def isNullable : FieldType → Bool
  | plain _ => false
  | optional _ => true

/-- The value of a field that nothing was assigned to. -/
def default : (t : FieldType) → t.Val
  | plain base => base.default
  | optional _ => none

/-- `field_to_bound_value`. -/
def toBoundValue : (t : FieldType) → t.Val → BoundValue
  | plain base, v => base.toBoundValue v
  | optional _, none => .null
  | optional base, some v => base.toBoundValue v

/-- `RowMapper::map_single_column`. -/
def mapSingleColumn (db : Sqlite) (c : Cell) : (t : FieldType) → t.Val
  | plain base => if SqliteDataReader.isNull c then base.default else base.readColumnValue db c
  | optional base =>
    if SqliteDataReader.isNull c then none else some (base.readColumnValue db c)

/-- The fields of a value are within their ranges. -/
def IsValid : (t : FieldType) → t.Val → Prop
  | plain base, v => base.IsValid v
  | optional base, v => ∀ w ∈ v, base.IsValid w

/-- An optional that is empty. -/
def IsNull : (t : FieldType) → t.Val → Prop
  | plain _, _ => False
  | optional _, v => v = none

/-- A value is bound to a cell that its column keeps, and from which it is read back if its size is
within the limit. -/
theorem bindCell_toBoundValue (db : Sqlite) (t : FieldType) {v : t.Val} (h : t.IsValid v) :
    (bindCell db (t.toBoundValue v) = none ∧ ¬ (t.toBoundValue v).byteSize ≤ db.maxLength) ∨
      ∃ c, bindCell db (t.toBoundValue v) = some c ∧ (c = .null ↔ t.IsNull v) ∧
        db.kept t.sqlType.sqliteName c = c ∧
        (t.mapSingleColumn db c = v ↔ (t.toBoundValue v).byteSize ≤ db.maxLength) := by
  have hread : ∀ {c : Cell}, c ≠ .null → SqliteDataReader.isNull c = false := fun hc =>
    decide_eq_false hc
  cases t with
  | plain base =>
    rcases base.cellwise db h with hnone | ⟨c, hbind, hnull, hkept, hiff⟩
    · exact .inl hnone
    · refine .inr ⟨c, hbind, iff_of_false hnull id, hkept, ?_⟩
      rw [mapSingleColumn, hread hnull]
      exact hiff
  | optional base =>
    cases v with
    | none =>
      exact .inr ⟨.null, rfl, iff_of_true rfl rfl, db.kept_null _,
        iff_of_true rfl (Nat.zero_le _)⟩
    | some v =>
      rcases base.cellwise db (h v rfl) with hnone | ⟨c, hbind, hnull, hkept, hiff⟩
      · exact .inl hnone
      · refine .inr ⟨c, hbind, iff_of_false hnull nofun, hkept, ?_⟩
        have hmap : (optional base).mapSingleColumn db c = some (base.readColumnValue db c) := by
          rw [mapSingleColumn, hread hnull]
          rfl
        rw [hmap, Option.some.injEq]
        exact hiff

/-- A number is no empty optional. -/
theorem mapSingleColumn_integer_ne (db : Sqlite) (n : Int64) {t : FieldType} {v : t.Val}
    (h : t.IsNull v) : t.mapSingleColumn db (.integer n) ≠ v := by
  cases t with
  | plain base => exact h.elim
  | optional base =>
    obtain rfl : v = none := h
    exact nofun

end FieldType

/-! ## Tables -/

/-- What the definition of a column declares in SQLite. -/
structure ColumnDeclaration where
  type : String
  isPrimaryKey : Bool
  deriving DecidableEq, Repr

/-- A column of the numbers of rows. -/
def ColumnDeclaration.isRowid (declaration : ColumnDeclaration) : Bool :=
  declaration.type = "INTEGER" && declaration.isPrimaryKey

/-- What SQLite stores of a value in a column. Where a row has no number of its own it is given
one. -/
def ColumnDeclaration.stored (db : Sqlite) (rowid : Int64) (declaration : ColumnDeclaration)
    (c : Cell) : Cell :=
  if declaration.isRowid && c = .null then .integer rowid else db.kept declaration.type c

variable {M : Type} {types : M → FieldType}

/-- An entity, by its members. -/
abbrev Entity (types : M → FieldType) : Type :=
  ∀ m, (types m).Val

/-- A column of an entity, and the member it is mapped to. -/
structure EntityColumn (types : M → FieldType) where
  name : String
  member : M
  isPrimaryKey : Bool := false
  isAutoIncrement : Bool := false
  isNotNull : Bool := false
  isUnique : Bool := false

/-- The column as `DbContext` uses it. -/
def EntityColumn.toColumnDef (col : EntityColumn types) : ColumnDef (Entity types) where
  name := col.name
  isPrimaryKey := col.isPrimaryKey
  isAutoIncrement := col.isAutoIncrement
  value entity := (types col.member).toBoundValue (entity col.member)

/-- A table whose columns have names of their own, as SQLite asks for. The database makes the
values of all columns of a member, or of none. -/
structure EntityTable (types : M → FieldType) where
  name : String
  columns : List (EntityColumn types)
  names_nodup : (columns.map (·.name)).Nodup
  auto_member : ∀ col ∈ columns, ∀ col' ∈ columns, col.member = col'.member →
    col.isAutoIncrement = col'.isAutoIncrement

/-- A row of a table, by the names of columns. -/
abbrev TableRow := String → Cell

namespace EntityTable

variable (table : EntityTable types)

/-- The table, as the operations of `DbContext` see it. -/
def toTableDef : TableDef (Entity types) where
  name := table.name
  columns := table.columns.map (·.toColumnDef)

/-- The fields whose values are inserted. -/
def IsField (m : M) : Prop :=
  ∃ col ∈ table.columns, col.member = m ∧ col.isAutoIncrement = false

/-- What `ensure_table` declares a column as. -/
def declaration (col : EntityColumn types) : ColumnDeclaration :=
  if col.isAutoIncrement then ⟨"INTEGER", true⟩
  else
    ⟨(types col.member).sqlType.sqliteName,
      col.isPrimaryKey && table.columns.countP (·.isPrimaryKey) == 1 &&
        !table.columns.any (·.isAutoIncrement)⟩

/-- The declaration of the column with a name. -/
def declared (name : String) : ColumnDeclaration :=
  ((table.columns.map fun col => (col.name, table.declaration col)).lookup name).getD ⟨"", false⟩

/-- The row that a statement describes : the parameters in the columns it names, and nothing in the
others. -/
def describedRow (db : Sqlite) (rowid : Int64) (names : List String) (cells : List Cell) :
    TableRow :=
  fun name => (table.declared name).stored db rowid (((names.zip cells).lookup name).getD .null)

/-- The row of the statement of `DbContext::insert`, if its values can be bound. -/
def newRow (db : Sqlite) (rowid : Int64) (entity : Entity types) : Option TableRow := do
  let cols := table.toTableDef.insertColumns
  let pkCol := table.toTableDef.generatedKey
  let returning := if pkCol = "" then none else some pkCol
  let names := cols.map (·.name)
  let r := generateInsert .sqlite table.name names (rowValues cols entity) returning
  let cells ← r.params.mapM (bindCell db)
  return table.describedRow db rowid names cells

/-- `DbContext::insert`, which adds a row if SQLite takes it : for its constraints, and for its
size. -/
def insert (db : Sqlite) (accepts : TableRow → Bool) (rowid : Int64) (entity : Entity types) :
    Option TableRow :=
  (table.newRow db rowid entity).filter accepts

/-- `RowMapper::map_row` of the values of a row, which begins with a default entity. -/
def mapRow [DecidableEq M] (db : Sqlite) (cells : List Cell) : Entity types :=
  (table.columns.zip cells).foldl
    (fun entity (col, c) =>
      Function.update entity col.member ((types col.member).mapSingleColumn db c))
    fun m => (types m).default

/-- `QueryBuilder::to_list` without conditions, of a table with some rows. -/
def toList [DecidableEq M] (db : Sqlite) (rows : List TableRow) : List (Entity types) :=
  rows.map fun row => table.mapRow db (table.toTableDef.columnNames.map row)

/-- The last column of a member, from which it is read. -/
def IsReadFrom (col : EntityColumn types) : Prop :=
  ∃ before after, table.columns = before ++ col :: after ∧ ∀ c ∈ after, c.member ≠ col.member

/-- The texts and blobs that are inserted are within the limit of SQLite. -/
def WithinLimit (db : Sqlite) (entity : Entity types) : Prop :=
  ∀ m, table.IsField m → ((types m).toBoundValue (entity m)).byteSize ≤ db.maxLength

/-- No empty optional is inserted as the number of the row. -/
def NumbersRows (entity : Entity types) : Prop :=
  ∀ col, table.IsReadFrom col → col.isAutoIncrement = false →
    (table.declaration col).isRowid = true → ¬ (types col.member).IsNull (entity col.member)

/-! ## Parameters and rows -/

theorem params_valueList : ∀ (vs : List BoundValue) (c : Context),
    (valueList vs c).2.params = c.params ++ vs
  | [], c => (List.append_nil c.params).symm
  | v :: vs, c => by
    have ih := params_valueList vs ⟨c.params ++ [v], c.slots ++ [.static v], c.paramCounter + 1⟩
    have hcons : (valueList (v :: vs) c).2.params = (valueList vs
        ⟨c.params ++ [v], c.slots ++ [.static v], c.paramCounter + 1⟩).2.params := rfl
    rw [hcons, ih, List.append_assoc, List.singleton_append]

/-- The parameters of an insert are its values. -/
theorem params_generateInsert (d : Dialect) (tableName : String) {names : List String}
    {values : List BoundValue} (h : names.length = values.length) (returning : Option String) :
    (generateInsert d tableName names values returning).params = values := by
  cases names with
  | nil =>
    rw [List.eq_nil_of_length_eq_zero h.symm]
    rfl
  | cons name names => exact params_valueList values (.start 0)

/-- What a list of pairs with distinct keys says about one of the keys. -/
theorem lookup_map_of_nodup {α β : Type*} {key : α → String} (value : α → β) {l : List α}
    (hnodup : (l.map key).Nodup) {x : α} (hx : x ∈ l) :
    (l.map fun y => (key y, value y)).lookup (key x) = some (value x) := by
  induction l with
  | nil => contradiction
  | cons y l ih =>
    rw [List.map_cons, List.nodup_cons] at hnodup
    rw [List.map_cons]
    rcases List.mem_cons.mp hx with rfl | hx
    · exact List.lookup_cons_self
    · have hne : (key x == key y) = false :=
        beq_false_of_ne fun heq => hnodup.1 (heq ▸ List.mem_map_of_mem hx)
      rw [List.lookup_cons, hne]
      exact ih hnodup.2 hx

/-- A column is declared once. -/
theorem declared_name {col : EntityColumn types} (h : col ∈ table.columns) :
    table.declared col.name = table.declaration col := by
  rw [declared, lookup_map_of_nodup _ table.names_nodup h]
  rfl

/-- The columns whose values are inserted. -/
def insertColumns : List (EntityColumn types) :=
  table.columns.filter (!·.isAutoIncrement)

theorem insertColumns_toTableDef :
    table.toTableDef.insertColumns = table.insertColumns.map (·.toColumnDef) := by
  rw [TableDef.insertColumns, toTableDef, List.filter_map]
  rfl

/-- The value of an entity in a column. -/
def boundCell (db : Sqlite) (entity : Entity types) (col : EntityColumn types) : Option Cell :=
  bindCell db ((types col.member).toBoundValue (entity col.member))

/-- The new row is what is bound, read as the table declares it. -/
theorem newRow_eq (db : Sqlite) (rowid : Int64) (entity : Entity types) :
    table.newRow db rowid entity =
      (table.insertColumns.mapM (boundCell db entity)).map
        (table.describedRow db rowid (table.insertColumns.map (·.name))) := by
  have hnames : table.toTableDef.insertColumns.map (·.name) = table.insertColumns.map (·.name) := by
    rw [insertColumns_toTableDef, List.map_map]
    rfl
  have hvalues : rowValues table.toTableDef.insertColumns entity =
      table.insertColumns.map fun col => (types col.member).toBoundValue (entity col.member) := by
    rw [insertColumns_toTableDef, rowValues, List.map_map]
    rfl
  have hlength : (table.insertColumns.map (·.name)).length =
      (table.insertColumns.map fun col =>
        (types col.member).toBoundValue (entity col.member)).length := by
    rw [List.length_map, List.length_map]
  rw [newRow]
  simp only [hnames, hvalues]
  rw [params_generateInsert _ _ hlength, List.mapM_map, Option.map_eq_bind]
  rfl

theorem mapM_eq_some {α β : Type*} {f : α → Option β} : ∀ {l : List α},
    (∀ x ∈ l, ∃ y, f x = some y) → ∃ ys, l.mapM f = some ys
  | [], _ => ⟨[], rfl⟩
  | x :: l, h => by
    obtain ⟨y, hy⟩ := h x List.mem_cons_self
    obtain ⟨ys, hys⟩ := mapM_eq_some fun z hz => h z (List.mem_cons_of_mem x hz)
    exact ⟨y :: ys, by rw [List.mapM_cons, hy, hys]; rfl⟩

/-- The results of a list, in its order. -/
theorem of_mapM_eq_some {α β : Type*} {f : α → Option β} (d : β) : ∀ {l : List α} {ys : List β},
    l.mapM f = some ys →
      ys = l.map (fun x => (f x).getD d) ∧ ∀ x ∈ l, f x = some ((f x).getD d)
  | [], ys, h => ⟨(Option.some.inj h).symm, nofun⟩
  | x :: l, ys, h => by
    rw [List.mapM_cons, Option.bind_eq_bind, Option.bind_eq_some_iff] at h
    obtain ⟨y, hy, h⟩ := h
    rw [Option.bind_eq_bind, Option.bind_eq_some_iff] at h
    obtain ⟨zs, hzs, h⟩ := h
    obtain ⟨hmap, hall⟩ := of_mapM_eq_some d hzs
    have hys : y :: zs = ys := Option.some.inj h
    refine ⟨by rw [← hys, List.map_cons, hy, hmap]; rfl, List.forall_mem_cons.mpr ⟨?_, hall⟩⟩
    rw [hy]
    rfl

/-- A value is in the row, as its column stores it. -/
theorem row_of_newRow {db : Sqlite} {rowid : Int64} {entity : Entity types} {row : TableRow}
    (h : table.newRow db rowid entity = some row) {col : EntityColumn types}
    (hcol : col ∈ table.columns) (hinserted : col.isAutoIncrement = false) :
    ∃ c, boundCell db entity col = some c ∧
      row col.name = (table.declaration col).stored db rowid c := by
  rw [newRow_eq, Option.map_eq_some_iff] at h
  obtain ⟨cells, hcells, rfl⟩ := h
  obtain ⟨hmap, hall⟩ := of_mapM_eq_some Cell.null hcells
  have hmem : col ∈ table.insertColumns := List.mem_filter.mpr ⟨hcol, by rw [hinserted]; rfl⟩
  have hnodup : (table.insertColumns.map (·.name)).Nodup :=
    table.names_nodup.sublist (List.filter_sublist.map _)
  have hzip : (table.insertColumns.map (·.name)).zip cells = table.insertColumns.map fun col =>
      (col.name, (boundCell db entity col).getD .null) := by
    rw [hmap, List.zip_map']
  refine ⟨_, hall col hmem, ?_⟩
  rw [describedRow, hzip, lookup_map_of_nodup _ hnodup hmem, Option.getD_some,
    declared_name table hcol]

/-- An entity whose sizes are within the limit has a row. -/
theorem newRow_of_withinLimit (db : Sqlite) (rowid : Int64) {entity : Entity types}
    (hvalid : ∀ m, table.IsField m → (types m).IsValid (entity m))
    (hlimit : table.WithinLimit db entity) : ∃ row, table.newRow db rowid entity = some row := by
  have hcells : ∀ col ∈ table.insertColumns, ∃ c, boundCell db entity col = some c := by
    intro col hcol
    obtain ⟨hcol, hinserted⟩ := List.mem_filter.mp hcol
    have hfield : table.IsField col.member := ⟨col, hcol, rfl, by simpa using hinserted⟩
    rcases (types col.member).bindCell_toBoundValue db (hvalid _ hfield) with
      ⟨-, hnot⟩ | ⟨c, hbind, -⟩
    · exact absurd (hlimit _ hfield) hnot
    · exact ⟨c, hbind⟩
  obtain ⟨cells, h⟩ := mapM_eq_some hcells
  exact ⟨_, by rw [newRow_eq, h]; rfl⟩

/-- A member that has a column is read from one. -/
theorem exists_isReadFrom {m : M} : ∀ {cols : List (EntityColumn types)},
    (∃ col ∈ cols, col.member = m) → ∃ before col after, cols = before ++ col :: after ∧
      col.member = m ∧ ∀ c ∈ after, c.member ≠ m
  | [], h => by
    obtain ⟨col, hcol, -⟩ := h
    contradiction
  | col :: cols, h => by
    by_cases hlater : ∃ c ∈ cols, c.member = m
    · obtain ⟨before, c, after, hcols, hc, hafter⟩ := exists_isReadFrom hlater
      exact ⟨col :: before, c, after, by rw [hcols, List.cons_append], hc, hafter⟩
    · obtain ⟨c, hc, hm⟩ := h
      rcases List.mem_cons.mp hc with rfl | hc
      · exact ⟨[], c, cols, rfl, hm, fun c' hc' hm' => hlater ⟨c', hc', hm'⟩⟩
      · exact absurd ⟨c, hc, hm⟩ hlater

/-- A field is read from one column. -/
theorem IsField.exists_isReadFrom {m : M} (h : table.IsField m) :
    ∃ col, table.IsReadFrom col ∧ col.member = m ∧ col.isAutoIncrement = false := by
  obtain ⟨field, hfield, hmember, hinserted⟩ := h
  obtain ⟨before, col, after, hcols, rfl, hafter⟩ :=
    EntityTable.exists_isReadFrom ⟨field, hfield, hmember⟩
  have hcol : col ∈ table.columns := hcols ▸ List.mem_append_right _ List.mem_cons_self
  refine ⟨col, ⟨before, after, hcols, hafter⟩, rfl, ?_⟩
  rw [← hinserted]
  exact table.auto_member col hcol field hfield hmember.symm

theorem IsReadFrom.mem {table : EntityTable types} {col : EntityColumn types}
    (h : table.IsReadFrom col) : col ∈ table.columns := by
  obtain ⟨before, after, hcols, -⟩ := h
  rw [hcols]
  exact List.mem_append_right _ List.mem_cons_self

section

variable [DecidableEq M]

/-- Columns of other members leave a member as it is. -/
theorem foldl_update_of_ne (db : Sqlite) (row : TableRow) (m : M) :
    ∀ {cols : List (EntityColumn types)} (entity : Entity types), (∀ c ∈ cols, c.member ≠ m) →
      cols.foldl (fun entity col => Function.update entity col.member
        ((types col.member).mapSingleColumn db (row col.name))) entity m = entity m
  | [], entity, _ => rfl
  | col :: cols, entity, h => by
    obtain ⟨hcol, hcols⟩ := List.forall_mem_cons.mp h
    rw [List.foldl_cons, foldl_update_of_ne db row m _ hcols]
    exact Function.update_of_ne (Ne.symm hcol) _ _

/-- A member has the value of the last of its columns. -/
theorem mapRow_eq (db : Sqlite) (row : TableRow) {col : EntityColumn types}
    (h : table.IsReadFrom col) :
    table.mapRow db (table.toTableDef.columnNames.map row) col.member =
      (types col.member).mapSingleColumn db (row col.name) := by
  obtain ⟨before, after, hcols, hafter⟩ := h
  have hzip : table.columns.zip (table.toTableDef.columnNames.map row) =
      table.columns.map fun col => (col, row col.name) := by
    rw [TableDef.columnNames, toTableDef, List.map_map, List.map_map, List.map_prod_left_eq_zip]
    rfl
  rw [mapRow, hzip, List.foldl_map, hcols, List.foldl_append, List.foldl_cons]
  refine (foldl_update_of_ne db row col.member _ hafter).trans ?_
  exact Function.update_self _ _ _

/-- A field of a new row is read back if its size is within the limit and it is no empty number of
the row. -/
theorem mapRow_eq_iff {db : Sqlite} {rowid : Int64} {entity : Entity types} {row : TableRow}
    (h : table.newRow db rowid entity = some row) {col : EntityColumn types}
    (hread : table.IsReadFrom col) (hinserted : col.isAutoIncrement = false)
    (hvalid : (types col.member).IsValid (entity col.member)) :
    table.mapRow db (table.toTableDef.columnNames.map row) col.member = entity col.member ↔
      ((types col.member).toBoundValue (entity col.member)).byteSize ≤ db.maxLength ∧
        ((table.declaration col).isRowid = true →
          ¬ (types col.member).IsNull (entity col.member)) := by
  obtain ⟨c, hbind, hrow⟩ := table.row_of_newRow h hread.mem hinserted
  have htype : (table.declaration col).type = (types col.member).sqlType.sqliteName := by
    rw [declaration, hinserted]
    rfl
  rw [mapRow_eq table db row hread, hrow, ColumnDeclaration.stored, htype]
  rcases (types col.member).bindCell_toBoundValue db hvalid with
    ⟨hnone, -⟩ | ⟨c', hbind', hnull, hkept, hiff⟩
  · rw [boundCell, hnone] at hbind
    contradiction
  · obtain rfl : c' = c := Option.some.inj (hbind'.symm.trans hbind)
    split
    · rename_i hrowid
      obtain ⟨hrowid, hc⟩ := (Bool.and_eq_true _ _).mp hrowid
      have hempty := hnull.mp (of_decide_eq_true hc)
      exact iff_of_false (FieldType.mapSingleColumn_integer_ne db rowid hempty)
        fun hall => hall.2 hrowid hempty
    · rename_i hrowid
      rw [hkept, hiff]
      refine (and_iff_left fun hrow hempty => hrowid ?_).symm
      exact (Bool.and_eq_true _ _).mpr ⟨hrow, decide_eq_true (hnull.mpr hempty)⟩

/-- An entity is inserted and its fields are read back, among the entities of other rows, if and
only if the sizes of its texts and blobs are within the limit, it numbers its row where the key is
the number of the row, and SQLite takes the row. -/
theorem toList_insert (db : Sqlite) (accepts : TableRow → Bool) (rowid : Int64)
    (entity : Entity types) (before after : List TableRow)
    (hvalid : ∀ m, table.IsField m → (types m).IsValid (entity m)) :
    (∃ row back, table.insert db accepts rowid entity = some row ∧
      table.toList db (before ++ row :: after) =
        table.toList db before ++ back :: table.toList db after ∧
      ∀ m, table.IsField m → back m = entity m) ↔
      table.WithinLimit db entity ∧ table.NumbersRows entity ∧
        ∀ row, table.newRow db rowid entity = some row → accepts row := by
  constructor
  · rintro ⟨row, back, hinsert, hlist, hback⟩
    obtain ⟨hrow, haccepts⟩ := Option.filter_eq_some_iff.mp hinsert
    rw [toList, toList, toList, List.map_append, List.map_cons, List.append_cancel_left_eq,
      List.cons.injEq] at hlist
    have hfields : ∀ col, table.IsReadFrom col → col.isAutoIncrement = false →
        ((types col.member).toBoundValue (entity col.member)).byteSize ≤ db.maxLength ∧
          ((table.declaration col).isRowid = true →
            ¬ (types col.member).IsNull (entity col.member)) := by
      intro col hread hinserted
      have hfield : table.IsField col.member := ⟨col, hread.mem, rfl, hinserted⟩
      rw [← mapRow_eq_iff table hrow hread hinserted (hvalid _ hfield), hlist.1]
      exact hback _ hfield
    refine ⟨fun m hfield => ?_, fun col hread hinserted => (hfields col hread hinserted).2, ?_⟩
    · obtain ⟨col, hread, rfl, hinserted⟩ := IsField.exists_isReadFrom table hfield
      exact (hfields col hread hinserted).1
    · intro row' hrow'
      obtain rfl : row' = row := Option.some.inj (hrow'.symm.trans hrow)
      exact haccepts
  · rintro ⟨hlimit, hnumbers, haccepts⟩
    obtain ⟨row, hrow⟩ := newRow_of_withinLimit table db rowid hvalid hlimit
    refine ⟨row, _, Option.filter_eq_some_iff.mpr ⟨hrow, haccepts row hrow⟩,
      by rw [toList, List.map_append, List.map_cons]; rfl, ?_⟩
    intro m hfield
    obtain ⟨col, hread, rfl, hinserted⟩ := IsField.exists_isReadFrom table hfield
    exact (mapRow_eq_iff table hrow hread hinserted (hvalid _ hfield)).mpr
      ⟨hlimit _ hfield, hnumbers col hread hinserted⟩

end

end EntityTable

/-! ## A table of notes -/

/-- What a cell is as a number, where SQLite would convert it. -/
def Cell.toInt64 : Cell → Int64
  | .integer v => v
  | _ => 0

/-- What a cell is as a text. -/
def Cell.toText : Cell → List Char
  | .text bytes => bytes
  | _ => []

/-- What a cell is as bytes. -/
def Cell.toBlob : Cell → List UInt8
  | .blob bytes => bytes
  | _ => []

/-- Columns that keep every value. -/
def keepAll (_ : String) (c : Cell) : Cell :=
  c

/-- SQLite where nothing is converted. -/
def plainSqlite : Sqlite where
  kept := keepAll
  maxLength := 10 ^ 9
  columnInt64 := Cell.toInt64
  columnText := Cell.toText
  columnBlob := Cell.toBlob
  maxLength_lt := by decide
  kept_null _ := rfl
  kept_integer _ := rfl
  kept_text _ := rfl
  kept_blob _ := rfl
  columnInt64_integer _ := rfl
  columnText_text _ := rfl
  columnBlob_blob _ := rfl

/-- The members of a note. -/
inductive NoteMember
  | id | title | due
  deriving DecidableEq

/-- Their types. -/
abbrev noteTypes : NoteMember → FieldType
  | .id => .plain .int64
  | .title => .plain .string
  | .due => .optional .timePoint

/-- The table of the notes, whose key SQLite may give. -/
def noteTable : EntityTable noteTypes where
  name := "notes"
  columns := [{ name := "id", member := .id, isPrimaryKey := true, isAutoIncrement := true },
    { name := "title", member := .title }, { name := "due", member := .due }]
  names_nodup := by decide
  auto_member := by decide

/-- A note with a title, due 1.5 seconds before 1970. -/
def note (title : List Char) : Entity noteTypes
  | .id => 0
  | .title => .ofList title
  | .due => some (-1500000000)

theorem isValid_note (title : List Char) (m : NoteMember) :
    (noteTypes m).IsValid (note title m) := by
  cases m with
  | id => trivial
  | title => trivial
  | due => exact fun _ _ => trivial

/-- A note comes back, with the key that it was given. -/
theorem toList_note :
    ∃ row back, noteTable.insert plainSqlite (fun _ => true) 1 (note ['a']) = some row ∧
      noteTable.toList plainSqlite ([] ++ row :: []) =
        noteTable.toList plainSqlite [] ++ back :: noteTable.toList plainSqlite [] ∧
      ∀ m, noteTable.IsField m → back m = note ['a'] m := by
  refine (noteTable.toList_insert plainSqlite (fun _ => true) 1 (note ['a']) [] []
    fun m _ => isValid_note ['a'] m).mpr ⟨fun m _ => ?_, fun col _ hinserted hrowid => ?_, ?_⟩
  · cases m <;> decide +kernel
  · rw [EntityTable.declaration, hinserted, ColumnDeclaration.isRowid] at hrowid
    simp [noteTable] at hrowid
  · exact fun _ _ => rfl

/-- A title of `2 ^ 32` bytes is bound with the size `0`. -/
theorem toList_long_note :
    ¬ ∃ row back,
      noteTable.insert plainSqlite (fun _ => true) 1 (note (List.replicate (2 ^ 32) 'a')) =
        some row ∧
      noteTable.toList plainSqlite ([] ++ row :: []) =
        noteTable.toList plainSqlite [] ++ back :: noteTable.toList plainSqlite [] ∧
      ∀ m, noteTable.IsField m → back m = note (List.replicate (2 ^ 32) 'a') m := by
  rintro ⟨row, back, hinsert, hlist, hback⟩
  have hfield : noteTable.IsField .title := ⟨_, List.mem_cons_of_mem _ List.mem_cons_self, rfl, rfl⟩
  have hread : noteTable.IsReadFrom { name := "title", member := .title } :=
    ⟨[_], [_], rfl, by decide⟩
  have hrow : noteTable.mapRow plainSqlite (noteTable.toTableDef.columnNames.map row) = back :=
    List.head_eq_of_cons_eq hlist
  have hsize := ((noteTable.mapRow_eq_iff (Option.filter_eq_some_iff.mp hinsert).1 hread rfl
    (isValid_note _ .title)).mp (by rw [hrow]; exact hback .title hfield)).1
  change (String.ofList (List.replicate (2 ^ 32) 'a')).toList.length ≤ 10 ^ 9 at hsize
  rw [String.toList_ofList, List.length_replicate] at hsize
  exact absurd hsize (by decide)

end CppLinq
