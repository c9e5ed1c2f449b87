import CppLinq.Template
import CppLinq.Expression
import Mathlib.Data.List.Infix

/-!
# The six dialects

`ISqlDialect` and its six implementations (`dialect/dialect.h`, `src/dialect/`). One
function here is one virtual method, with a branch for each class that overrides it; the
remaining classes inherit the body of `ISqlDialect`.

A placeholder is a hole (`placeholder`), so a text a dialect builds still carries the index
of every parameter. `placeholderText`, which every dialect writes as `?`, turns it into the
text that is sent.
-/

namespace CppLinq

/-- The six dialects. -/
inductive Dialect
  | sqlite | postgres | mssql | mysql | informix | oracle
  deriving DecidableEq, Repr

/-- Texts separated by commas. -/
def commaList (ts : List Text) : Text :=
  joinSep (lit ", ") ts

/-- Texts separated by `AND`. -/
def andList (ts : List Text) : Text :=
  joinSep (lit " AND ") ts

/-- An identifier between `opening` and `closing`, every `closing` in it doubled. -/
def quoteWith (opening closing : Char) (id : String) : Text :=
  .chr opening :: (id.toList.flatMap fun c => if c = closing then [.chr closing, .chr closing]
    else [.chr c]) ++ [.chr closing]

/-- The placeholder of the parameter with index `i`. -/
def placeholder (i : ℕ) : Text :=
  [.hole i]

namespace Dialect

/-- `quote_id`. -/
def quoteId : Dialect → String → Text
  | .sqlite => quoteWith '"' '"'
  | .postgres => quoteWith '"' '"'
  | .mssql => quoteWith '[' ']'
  | .mysql => quoteWith '\x60' '\x60'
  | .informix => quoteWith '"' '"'
  | .oracle => quoteWith '"' '"'

/-- What `placeholder` returns for an index. -/
def placeholderText (_ : Dialect) (_ : ℕ) : List Char :=
  ['?']

/-- The text as the dialect writes it. -/
def write (d : Dialect) (t : Text) : List Char :=
  render d.placeholderText t

/-- `OFFSET m ROWS FETCH NEXT n ROWS ONLY`, as SQL Server and Oracle page. -/
def fetchNext : Option ℕ → Option ℕ → String
  | some n, some m => " OFFSET " ++ m.repr ++ " ROWS FETCH NEXT " ++ n.repr ++ " ROWS ONLY"
  | none, some m => " OFFSET " ++ m.repr ++ " ROWS"
  | some n, none => " OFFSET 0 ROWS FETCH NEXT " ++ n.repr ++ " ROWS ONLY"
  | none, none => ""

/-- `LIMIT n OFFSET m`, with the limit `unlimited` written where only an offset is set. -/
def limitThenOffset (unlimited : String) : Option ℕ → Option ℕ → String
  | some n, some m => " LIMIT " ++ n.repr ++ " OFFSET " ++ m.repr
  | some n, none => " LIMIT " ++ n.repr
  | none, some m => unlimited ++ " OFFSET " ++ m.repr
  | none, none => ""

/-- `limit_offset`. -/
def limitOffset : Dialect → Option ℕ → Option ℕ → Except Exn String
  | .sqlite, limit, offset => .ok (limitThenOffset " LIMIT -1" limit offset)
  | .postgres, limit, offset => .ok (limitThenOffset "" limit offset)
  | .mssql, limit, offset =>
    -- SQL Server rejects a fetch of no rows, so the dialect does first
    if limit = some 0 then
      .error (.invalidArgument "MssqlDialect: FETCH NEXT row count must be greater than zero")
    else .ok (fetchNext limit offset)
  | .mysql, limit, offset => .ok (limitThenOffset " LIMIT 18446744073709551615" limit offset)
  | .informix, _, _ => .ok ""
  | .oracle, limit, offset => .ok (fetchNext limit offset)

/-- Informix pages before the select list, the others not at all there. -/
def selectPrefixLimitOffset : Dialect → Option ℕ → Option ℕ → String
  | .informix, limit, offset =>
    (match offset with
      | some m => "SKIP " ++ m.repr ++ " "
      | none => "") ++
    (match limit with
      | some n => "FIRST " ++ n.repr ++ " "
      | none => "")
  | _, _, _ => ""

theorem limitOffset_none (d : Dialect) : d.limitOffset none none = .ok "" := by
  cases d <;> rfl

theorem selectPrefixLimitOffset_none (d : Dialect) : d.selectPrefixLimitOffset none none = "" := by
  cases d <;> rfl

/-- `returning_clause`. -/
def returningClause : Dialect → String → Text
  | .sqlite, column => lit " RETURNING " ++ quoteId .sqlite column
  | .postgres, column => lit " RETURNING " ++ quoteId .postgres column
  | _, _ => []

/-- `output_clause`. -/
def outputClause : Dialect → String → Text
  | .mssql, column => lit " OUTPUT INSERTED." ++ quoteId .mssql column
  | _, _ => []

/-- The query for the key of the row inserted last. -/
def lastInsertIdQuery : Dialect → String → String → Text
  | .sqlite, _, _ => lit "SELECT last_insert_rowid()"
  | .informix, _, _ =>
    lit "SELECT DBINFO('sqlca.sqlerrd1') FROM \"informix\".systables WHERE tabid = 1"
  | .oracle, tableName, pkCol =>
    if tableName ≠ "" ∧ pkCol ≠ "" then
      lit "SELECT NVL(MAX(" ++ quoteId .oracle pkCol ++ lit "), 0) FROM " ++
        quoteId .oracle tableName
    else lit "SELECT 0 FROM DUAL"
  | _, _, _ => lit "SELECT LAST_INSERT_ID()"

/-- `supports_last_insert_id`. -/
def supportsLastInsertId (_ : Dialect) : Bool :=
  true

/-- `function_name`. -/
def functionName : Dialect → String → String
  | .mssql, func => if func = "LENGTH" then "LEN" else if func = "SUBSTR" then "SUBSTRING" else func
  | .mysql, func =>
    if func = "LENGTH" then "CHAR_LENGTH" else if func = "SUBSTR" then "SUBSTRING" else func
  | _, func => func

/-- `current_timestamp_func`. -/
def currentTimestampFunc : Dialect → String
  | .informix => "CURRENT YEAR TO FRACTION(3)"
  | _ => "CURRENT_TIMESTAMP"

/-- `current_date_func`. -/
def currentDateFunc : Dialect → String
  | .mssql => "CAST(GETDATE() AS DATE)"
  | .mysql => "CURRENT_DATE()"
  | .informix => "TODAY"
  | _ => "CURRENT_DATE"

/-- `strftime` with the format of a date part, as an integer. -/
def strftimePart (format : String) (exprSql : Text) : Text :=
  lit ("CAST(strftime('" ++ format ++ "', ") ++ exprSql ++ lit ") AS INTEGER)"

/-- A part function around an operand cast to a date-time. -/
def informixPart (func : String) (exprSql : Text) : Text :=
  lit (func ++ "(CAST(") ++ exprSql ++ lit " AS DATETIME YEAR TO SECOND))"

/-- `extract_part_func`. -/
def extractPartFunc : Dialect → String → Text → Text
  | .sqlite, part, exprSql =>
    if part = "YEAR" then strftimePart "%Y" exprSql
    else if part = "MONTH" then strftimePart "%m" exprSql
    else if part = "DAY" then strftimePart "%d" exprSql
    else if part = "HOUR" then strftimePart "%H" exprSql
    else if part = "MINUTE" then strftimePart "%M" exprSql
    else if part = "SECOND" then strftimePart "%S" exprSql
    else lit ("strftime('" ++ part ++ "', ") ++ exprSql ++ lit ")"
  | .postgres, part, exprSql =>
    lit ("EXTRACT(" ++ part ++ " FROM CAST(") ++ exprSql ++ lit " AS TIMESTAMP))"
  | .mssql, part, exprSql =>
    if part = "YEAR" ∨ part = "MONTH" ∨ part = "DAY" then lit (part ++ "(") ++ exprSql ++ lit ")"
    else lit ("DATEPART(" ++ part ++ ", ") ++ exprSql ++ lit ")"
  | .mysql, part, exprSql =>
    if part = "YEAR" ∨ part = "MONTH" ∨ part = "DAY" then lit (part ++ "(") ++ exprSql ++ lit ")"
    else lit ("EXTRACT(" ++ part ++ " FROM ") ++ exprSql ++ lit ")"
  | .informix, part, exprSql =>
    if part = "YEAR" ∨ part = "MONTH" ∨ part = "DAY" then informixPart part exprSql
    else lit ("EXTRACT(" ++ part ++ " FROM CAST(") ++ exprSql ++
      lit " AS DATETIME YEAR TO SECOND))"
  | .oracle, part, exprSql =>
    lit ("EXTRACT(" ++ part ++ " FROM TO_TIMESTAMP(SUBSTR(") ++ exprSql ++
      lit ", 1, 19), 'YYYY-MM-DD HH24:MI:SS'))"

/-- `date_add_days_func`. -/
def dateAddDaysFunc : Dialect → Text → Text → Text
  | .sqlite, exprSql, daysSql =>
    lit "date(" ++ exprSql ++ lit ", (" ++ daysSql ++ lit ") || ' days')"
  | .postgres, exprSql, daysSql =>
    lit "(CAST(" ++ exprSql ++ lit " AS TIMESTAMP) + (" ++ daysSql ++
      lit " || ' days')::interval)"
  -- the number of days comes before the date
  | .mssql, exprSql, daysSql => lit "DATEADD(day, " ++ daysSql ++ lit ", " ++ exprSql ++ lit ")"
  | .mysql, exprSql, daysSql =>
    lit "DATE_ADD(" ++ exprSql ++ lit ", INTERVAL (" ++ daysSql ++ lit ") DAY)"
  | .informix, exprSql, daysSql =>
    lit "(" ++ exprSql ++ lit " + (" ++ daysSql ++ lit ") UNITS DAY)"
  | .oracle, exprSql, daysSql =>
    lit "(TO_TIMESTAMP(SUBSTR(" ++ exprSql ++
      lit ", 1, 19), 'YYYY-MM-DD HH24:MI:SS') + NUMTODSINTERVAL(" ++ daysSql ++ lit ", 'DAY'))"

/-! ## Upsert -/

/-- The quoted columns, separated by commas. -/
def columnList (d : Dialect) (columns : List String) : Text :=
  commaList (columns.map d.quoteId)

/-- One placeholder for each of `n` columns, separated by commas. -/
def placeholderList (n : ℕ) : Text :=
  commaList ((List.range n).map placeholder)

/-- `target.c = source.c` for a column, the two names as the dialect writes them. -/
def targetIsSource (d : Dialect) (target source column : String) : Text :=
  lit (target ++ ".") ++ d.quoteId column ++ lit (" = " ++ source ++ ".") ++ d.quoteId column

/-- The tail of a MERGE : the key match, the update unless it has no columns, the insert. -/
def mergeTail (d : Dialect) (target source : String)
    (insertColumns conflictColumns updateColumns : List String) : Text :=
  andList (conflictColumns.map (d.targetIsSource target source)) ++ lit ")" ++
  (if updateColumns.isEmpty then []
    else lit " WHEN MATCHED THEN UPDATE SET " ++
      commaList (updateColumns.map (d.targetIsSource target source))) ++
  lit " WHEN NOT MATCHED THEN INSERT (" ++ d.columnList insertColumns ++ lit ") VALUES (" ++
  commaList (insertColumns.map fun c => lit (source ++ ".") ++ d.quoteId c) ++ lit ")"

/-- `ISqlDialect::generate_upsert`, which SQLite and PostgreSQL inherit. -/
def baseUpsert (d : Dialect) (tableName : String)
    (insertColumns conflictColumns updateColumns : List String) : Text :=
  lit "INSERT INTO " ++ d.quoteId tableName ++ lit " (" ++ d.columnList insertColumns ++
  lit ") VALUES (" ++ placeholderList insertColumns.length ++ lit ") ON CONFLICT (" ++
  d.columnList conflictColumns ++
  (if updateColumns.isEmpty then lit ") DO NOTHING"
    else lit ") DO UPDATE SET " ++
      commaList (updateColumns.map fun c => d.quoteId c ++ lit " = EXCLUDED." ++ d.quoteId c))

/-- `generate_upsert` of MySQL. -/
def mysqlUpsert (tableName : String) (insertColumns conflictColumns updateColumns : List String) :
    Except Exn Text :=
  match insertColumns with
  | [] => .error (.invalidArgument "insert_columns cannot be empty for upsert")
  | first :: _ =>
    .ok (lit "INSERT INTO " ++ quoteId .mysql tableName ++ lit " (" ++
      columnList .mysql insertColumns ++ lit ") VALUES (" ++
      placeholderList insertColumns.length ++ lit ") ON DUPLICATE KEY UPDATE " ++
      match updateColumns, conflictColumns with
      | [], [] => quoteId .mysql first ++ lit " = " ++ quoteId .mysql first
      | [], c :: _ => quoteId .mysql c ++ lit " = " ++ quoteId .mysql c
      | _ :: _, _ => commaList (updateColumns.map fun c =>
          quoteId .mysql c ++ lit " = VALUES(" ++ quoteId .mysql c ++ lit ")"))

/-- `generate_upsert` of SQL Server. -/
def mssqlUpsert (tableName : String) (insertColumns conflictColumns updateColumns : List String) :
    Except Exn Text :=
  if insertColumns.isEmpty then
    .error (.invalidArgument "insert_columns cannot be empty for upsert")
  else if conflictColumns.isEmpty then
    .error (.invalidArgument "conflict_columns cannot be empty for MSSQL upsert")
  else
    .ok (lit "MERGE INTO " ++ quoteId .mssql tableName ++
      lit " WITH (HOLDLOCK) AS [target] USING (VALUES (" ++
      placeholderList insertColumns.length ++ lit ")) AS [source] (" ++
      columnList .mssql insertColumns ++ lit ") ON (" ++
      mergeTail .mssql "[target]" "[source]" insertColumns conflictColumns updateColumns ++
      lit ";")

/-- Oracle forbids updating a column of the ON clause, so conflict columns are left out of
the update. Without insert or conflict columns the text is empty. -/
def oracleUpsert (tableName : String) (insertColumns conflictColumns updateColumns : List String) :
    Text :=
  if insertColumns.isEmpty || conflictColumns.isEmpty then []
  else
    lit "MERGE INTO " ++ quoteId .oracle tableName ++ lit " target USING (SELECT " ++
    commaList (insertColumns.mapIdx fun i c =>
      placeholder i ++ lit " AS " ++ quoteId .oracle c) ++
    lit " FROM DUAL) source ON (" ++
    mergeTail .oracle "target" "source" insertColumns conflictColumns
      (updateColumns.filter fun c => !conflictColumns.contains c)

/-- `VARCHAR(255)` or its national variant for a text of `size` bytes or units, and
`LVARCHAR` for a longer one. -/
def informixTextType (short : String) (size : ℕ) : String :=
  if size > 255 then "LVARCHAR(" ++ (min size 32739).repr ++ ")" else short

/-- `get_informix_cast_type`. -/
def informixCastType : BoundValue → String
  | .null => "VARCHAR(255)"
  | .int64 _ => "BIGINT"
  | .uint64 _ => "DECIMAL(20, 0)"
  | .double _ => "FLOAT"
  | .string v => informixTextType "VARCHAR(255)" v.length
  | .wstring v => informixTextType "NVARCHAR(255)" v.length
  | .bool _ => "BOOLEAN"
  | .blob _ => "BLOB"
  | .numeric _ => "DECIMAL(28, 10)"
  | .date _ => "DATE"
  | .time _ => "DATETIME HOUR TO SECOND"
  | .timestamp _ => "DATETIME YEAR TO FRACTION(3)"
  | .interval _ => "VARCHAR(100)"
  | .guid _ => "VARCHAR(36)"

/-- `generate_upsert` of Informix, whose casts are chosen by the values. -/
def informixUpsert (tableName : String) (insertColumns : List String) (values : List BoundValue)
    (conflictColumns updateColumns : List String) : Text :=
  lit "MERGE INTO " ++ quoteId .informix tableName ++ lit " AS target USING (SELECT " ++
  commaList (insertColumns.mapIdx fun i c =>
    lit "CAST(" ++ placeholder i ++
    lit (" AS " ++ (values[i]?.map informixCastType).getD "VARCHAR(255)" ++ ") AS ") ++
    quoteId .informix c) ++
  lit " FROM \"informix\".systables WHERE tabid = 1) AS source ON (" ++
  mergeTail .informix "target" "source" insertColumns conflictColumns updateColumns

/-- `generate_upsert`. -/
def generateUpsert : Dialect → String → List String → List BoundValue → List String →
    List String → Except Exn Text
  | .sqlite, table, ins, _, conflict, upd => .ok (baseUpsert .sqlite table ins conflict upd)
  | .postgres, table, ins, _, conflict, upd => .ok (baseUpsert .postgres table ins conflict upd)
  | .mssql, table, ins, _, conflict, upd => mssqlUpsert table ins conflict upd
  | .mysql, table, ins, _, conflict, upd => mysqlUpsert table ins conflict upd
  | .informix, table, ins, values, conflict, upd =>
    .ok (informixUpsert table ins values conflict upd)
  | .oracle, table, ins, _, conflict, upd => .ok (oracleUpsert table ins conflict upd)

end Dialect

end CppLinq
