import CppLinq.Terminals
import CppLinq.Database

/-!
# The operations of `DbContext`

Inserts, upserts and the batch operations of `core/db_context.h`, and the scope of a
`Transaction` (`driver/connection.h`). A batch operation either binds whole chunks to
arrays (`insert_many_batch`) or executes a prepared statement again and again, in a
transaction of its own in both cases. Statements are destroyed without a call.
-/

namespace CppLinq

/-- `ColumnDef`, with the function that reads a value of it. -/
structure ColumnDef (E : Type) where
  name : String
  isPrimaryKey : Bool := false
  isAutoIncrement : Bool := false
  /-- The member of an entity, as a parameter. -/
  value : E → BoundValue

/-- `TableDef`. -/
structure TableDef (E : Type) where
  name : String
  columns : List (ColumnDef E)

/-- A connection : its dialect and capabilities, and what its calls answer. -/
structure Connection where
  dialect : Dialect
  arrayBatchInsert : Bool
  defaultBatchChunkSize : ℕ
  driver : Driver
  /-- The rows that the last of the calls affected. -/
  affected : List DriverCall → ℕ
  /-- The number in the first row of the query that the last of the calls executed. -/
  firstInt64 : List DriverCall → Option Int64

/-- The chunks of a list, of a given size but for the last. -/
def chunks {α : Type} (size : ℕ) (xs : List α) : List (List α) :=
  parts size ((xs.length + size - 1) / size) xs

namespace TableDef

variable {E : Type} (table : TableDef E)

/-- The columns that an `INSERT` names : those that the database does not number. -/
def insertColumns : List (ColumnDef E) :=
  table.columns.filter (!·.isAutoIncrement)

/-- The key columns. -/
def pkColumns : List (ColumnDef E) :=
  table.columns.filter (·.isPrimaryKey)

/-- The columns that an `UPDATE` sets. -/
def nonPkColumns : List (ColumnDef E) :=
  table.columns.filter (!·.isPrimaryKey)

/-- The key whose value the database makes : the last auto-increment column, or `""`. -/
def generatedKey : String :=
  (table.columns.filter (·.isAutoIncrement)).getLast?.elim "" (·.name)

/-- `column_names`. -/
def columnNames : List String :=
  table.columns.map (·.name)

/-- The conflict columns of an upsert : those given, else the first of the primary key. -/
def conflictColumns (given : List String) : List String :=
  if given.isEmpty then (table.pkColumns.take 1).map (·.name) else given

/-- The columns an upsert updates : those given, else all but the conflict columns. -/
def updateColumns (conflictColumns given : List String) : List String :=
  if given.isEmpty then table.columnNames.filter (!conflictColumns.contains ·) else given

end TableDef

/-- The values of an entity in columns. -/
def rowValues {E : Type} (columns : List (ColumnDef E)) (entity : E) : List BoundValue :=
  columns.map (·.value entity)

namespace Connection

variable (conn : Connection)

/-- A scope with a `Transaction` that is committed at its end. The destructor rolls back
what was not committed, and throws nothing. -/
def transaction {α : Type} (body : Session α) : Session α := do
  call conn.driver .beginTransaction
  tryCatch
    (do
      let a ← body
      call conn.driver .commit
      return a)
    fun e => do
      tryCatch (call conn.driver .rollback) fun _ => return
      throw e

/-- `execute_non_query` of the prepared statement. -/
def executeNonQuery : Session ℕ := do
  call conn.driver .executeNonQuery
  return conn.affected (← get)

/-- `insert_many_batch` of the connection. -/
def insertManyBatch (sql : Text) (flatParams : List BoundValue) (colCount rowCount : ℕ) :
    Session ℕ := do
  call conn.driver (.insertManyBatch sql flatParams colCount rowCount)
  return conn.affected (← get)

/-- Bind parameters from the first position on, and execute. -/
def executeWith (params : List BoundValue) : Session ℕ := do
  callAll conn.driver (bindCalls 0 params)
  conn.executeNonQuery

/-- The same for a statement that may have been executed before. -/
def executeAgain (params : List BoundValue) : Session ℕ := do
  call conn.driver .reset
  conn.executeWith params

/-- The size of chunks, where `0` asks for the default. -/
def chunkSizeOr (chunkSize : ℕ) : ℕ :=
  if chunkSize = 0 then
    if conn.defaultBatchChunkSize = 0 then 1000 else conn.defaultBatchChunkSize
  else chunkSize

end Connection

/-- Do something for each element, and add up the numbers. -/
def sumOver {α : Type} (f : α → Session ℕ) : List α → Session ℕ
  | [] => return 0
  | x :: xs => do
    let n ← f x
    let m ← sumOver f xs
    return n + m

namespace DbContext

variable (conn : Connection)

/-- Read the key of an inserted row. -/
def readKey : Session Int64 := do
  call conn.driver .executeQuery
  return (conn.firstInt64 (← get)).getD 0

/-- `insert`, which returns the generated key. -/
def insert {E : Type} (table : TableDef E) (entity : E) : Session Int64 := do
  let cols := table.insertColumns
  let pkCol := table.generatedKey
  let returning := if pkCol = "" then none else some pkCol
  let r := generateInsert conn.dialect table.name (cols.map (·.name)) (rowValues cols entity)
    returning
  call conn.driver (.prepare r.sql)
  callAll conn.driver (bindCalls 0 r.params)
  if pkCol = "" then
    let _ ← conn.executeNonQuery
    return 0
  else if conn.dialect.returningClause pkCol ≠ [] ∨ conn.dialect.outputClause pkCol ≠ [] then
    readKey conn
  else
    -- the key has to be asked for
    let _ ← conn.executeNonQuery
    let lastIdQuery := conn.dialect.lastInsertIdQuery table.name pkCol
    if conn.dialect.supportsLastInsertId && !lastIdQuery.isEmpty then
      call conn.driver (.prepare lastIdQuery)
      readKey conn
    else return 0

/-- `upsert`. -/
def upsert {E : Type} (table : TableDef E) (entity : E)
    (conflictColumns updateColumns : List String) : Session ℕ := do
  let conflict := table.conflictColumns conflictColumns
  let r ← generateUpsert conn.dialect table.name table.columnNames
    (rowValues table.columns entity) conflict (table.updateColumns conflict updateColumns)
  call conn.driver (.prepare r.sql)
  conn.executeWith r.params

/-- The statement of `insert_many`. -/
def insertSql {E : Type} (table : TableDef E) : Text :=
  let names := table.insertColumns.map (·.name)
  (generateInsert conn.dialect table.name names (List.replicate names.length (.int64 0)) none).sql

/-- `insert_many`. -/
def insertMany {E : Type} (table : TableDef E) (entities : List E) (chunkSize : ℕ) :
    Session Unit := do
  if entities.isEmpty then return
  else
    let cols := table.insertColumns
    let sql := insertSql conn table
    if conn.arrayBatchInsert then
      let _ ← conn.transaction (sumOver (fun chunk => conn.insertManyBatch sql
        (chunk.flatMap (rowValues cols)) cols.length chunk.length)
        (chunks (conn.chunkSizeOr chunkSize) entities))
    else
      call conn.driver (.prepare sql)
      let _ ← conn.transaction
        (sumOver (fun e => conn.executeAgain (rowValues cols e)) entities)

/-- The beginning of the statements of `delete_many`. -/
def deleteTarget {E : Type} (table : TableDef E) (pk : ColumnDef E) : Text :=
  lit "DELETE FROM " ++ conn.dialect.quoteId table.name ++ lit " WHERE " ++
    conn.dialect.quoteId pk.name

/-- The statement of `delete_many` for one key. -/
def deleteSql {E : Type} (table : TableDef E) (pk : ColumnDef E) : Text :=
  deleteTarget conn table pk ++ lit " = " ++ placeholder 0

/-- The statement of `delete_many` for a chunk of keys. -/
def deleteInSql {E : Type} (table : TableDef E) (pk : ColumnDef E) (count : ℕ) : Text :=
  deleteTarget conn table pk ++ lit " IN (" ++ Dialect.placeholderList count ++ lit ")"

/-- `delete_many`. -/
def deleteMany {E K : Type} (table : TableDef E) (toBoundValue : K → BoundValue) (ids : List K)
    (chunkSize : ℕ) : Session ℕ :=
  if ids.isEmpty then return 0
  else
    match table.pkColumns with
    | [] => throw (.dbException "delete_many requires a primary key column")
    | [pk] =>
      let parts := chunks (conn.chunkSizeOr chunkSize) ids
      if conn.arrayBatchInsert then
        conn.transaction (sumOver (fun chunk => conn.insertManyBatch (deleteSql conn table pk)
          (chunk.map toBoundValue) 1 chunk.length) parts)
      else
        conn.transaction (sumOver (fun chunk => do
          call conn.driver (.prepare (deleteInSql conn table pk chunk.length))
          conn.executeWith (chunk.map toBoundValue)) parts)
    | _ => throw (.dbException "delete_many does not support composite primary keys")

/-- The columns in the order `update_many` binds them. -/
def updateOrder {E : Type} (table : TableDef E) : List (ColumnDef E) :=
  table.nonPkColumns ++ table.pkColumns

/-- `c = ?` for columns, the placeholders numbered from `k` on. -/
def equalities {E : Type} (columns : List (ColumnDef E)) (k : ℕ) : List Text :=
  columns.zipIdx.map fun (c, i) => conn.dialect.quoteId c.name ++ lit " = " ++ placeholder (k + i)

/-- The statement of `update_many`. -/
def updateSql {E : Type} (table : TableDef E) : Text :=
  lit "UPDATE " ++ conn.dialect.quoteId table.name ++ lit " SET " ++
    commaList (equalities conn table.nonPkColumns 0) ++ lit " WHERE " ++
    andList (equalities conn table.pkColumns table.nonPkColumns.length)

/-- `update_many`. -/
def updateMany {E : Type} (table : TableDef E) (entities : List E) (chunkSize : ℕ) :
    Session ℕ := do
  if entities.isEmpty then return 0
  else if table.pkColumns.isEmpty then
    throw (.dbException "update_many requires a primary key column")
  else
    let cols := updateOrder table
    let sql := updateSql conn table
    if conn.arrayBatchInsert then
      conn.transaction (sumOver (fun chunk => conn.insertManyBatch sql
        (chunk.flatMap (rowValues cols)) cols.length chunk.length)
        (chunks (conn.chunkSizeOr chunkSize) entities))
    else
      call conn.driver (.prepare sql)
      conn.transaction (sumOver (fun e => conn.executeAgain (rowValues cols e)) entities)

/-- The statement of `upsert_many`, made for the values of one entity. -/
def upsertSql {E : Type} (table : TableDef E) (front : E)
    (conflictColumns updateColumns : List String) : Except Exn Text := do
  let conflict := table.conflictColumns conflictColumns
  let r ← generateUpsert conn.dialect table.name table.columnNames
    (rowValues table.columns front) conflict (table.updateColumns conflict updateColumns)
  return r.sql

/-- `upsert_many`. -/
def upsertMany {E : Type} (table : TableDef E) (entities : List E)
    (conflictColumns updateColumns : List String) : Session ℕ :=
  match entities with
  | [] => return 0
  | front :: _ => do
    let sql ← upsertSql conn table front conflictColumns updateColumns
    call conn.driver (.prepare sql)
    conn.transaction
      (sumOver (fun e => conn.executeAgain (rowValues table.columns e)) entities)

end DbContext

/-- A call of a batch operation. -/
inductive BatchOperation : Type 1
  | insertMany {E : Type} (table : TableDef E) (entities : List E) (chunkSize : ℕ)
  | deleteMany {E K : Type} (table : TableDef E) (toBoundValue : K → BoundValue) (ids : List K)
    (chunkSize : ℕ)
  | updateMany {E : Type} (table : TableDef E) (entities : List E) (chunkSize : ℕ)
  | upsertMany {E : Type} (table : TableDef E) (entities : List E)
    (conflictColumns updateColumns : List String)

/-- Do something for its effect. -/
def Session.discard {α : Type} (m : Session α) : Session Unit := do
  let _ ← m
  return

/-- A batch operation, without its count. -/
def BatchOperation.run (conn : Connection) : BatchOperation → Session Unit
  | .insertMany table entities chunkSize => DbContext.insertMany conn table entities chunkSize
  | .deleteMany table toBoundValue ids chunkSize =>
    (DbContext.deleteMany conn table toBoundValue ids chunkSize).discard
  | .updateMany table entities chunkSize =>
    (DbContext.updateMany conn table entities chunkSize).discard
  | .upsertMany table entities conflictColumns updateColumns =>
    (DbContext.upsertMany conn table entities conflictColumns updateColumns).discard

/-- A call of an operation that changes rows. -/
inductive Operation : Type 1
  | insert {E : Type} (table : TableDef E) (entity : E)
  | update (q : QueryBuilder) (assignments : List AssignExpr)
  | remove (q : QueryBuilder)
  | upsert {E : Type} (table : TableDef E) (entity : E)
    (conflictColumns updateColumns : List String)
  | batch (op : BatchOperation)

/-- An operation, without its result. -/
def Operation.run (conn : Connection) : Operation → Session Unit
  | .insert table entity => (DbContext.insert conn table entity).discard
  | .update q assignments => (Terminal.update q assignments).run conn.driver conn.dialect
  | .remove q => (Terminal.remove q).run conn.driver conn.dialect
  | .upsert table entity conflictColumns updateColumns =>
    (DbContext.upsert conn table entity conflictColumns updateColumns).discard
  | .batch op => op.run conn

end CppLinq
