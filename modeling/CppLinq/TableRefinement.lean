import CppLinq.BatchAtomicity
import CppLinq.RowCounts
import CppLinq.UpsertMany
import CppLinq.UpsertReading

/-!
# Batch operations change the rows they are for

The tables of a database, and two accounts of what a batch operation does to them. One is
that of `core/db_context.h` : the statements that are executed, as a server reads them in
their texts (`DmlStatement.exec`, `tableServer`). The other says what the operation is for,
in entities and without a statement (`BatchOperation.effect`) : `insert_many` appends the
rows of the entities, `update_many` and `upsert_many` go through the entities one after
another, and `delete_many` drops the rows with one of the keys.

The first account refines the second (`execAll_statements`), whether rows are bound to
arrays or not and whatever the size of the chunks, and so does every sequence of requests
on one database, of which any may fail at any of its calls (`requests_refine`).
-/

namespace CppLinq

/-! ## Tables -/

/-- The rows of each table. -/
abbrev Tables := String → List NamedRow

/-- What a database knows of its tables. -/
structure Schema where
  /-- The defaults of the columns of a table. -/
  defaults : String → NamedRow
  /-- The columns of the unique key of a table. -/
  unique : String → List String
  cast : UpsertStatement.Cast

/-- A row has values in columns, none of them `NULL`. -/
def HasValues (columns : List String) (values : List BoundValue) (r : NamedRow) : Prop :=
  ∀ p ∈ columns.zip values, p.2 ≠ .null ∧ r p.1 = p.2

instance (columns : List String) (values : List BoundValue) (r : NamedRow) :
    Decidable (HasValues columns values r) :=
  inferInstanceAs (Decidable (∀ p ∈ columns.zip values, _))

namespace DmlStatement

variable (schema : Schema) (params : List BoundValue)

/-- The table of a statement. -/
def tableName : DmlStatement → String
  | insert tableName _ => tableName
  | update tableName _ _ => tableName
  | delete tableName _ _ => tableName
  | upsert s => s.tableName

/-- The markers of a statement. -/
def markers : DmlStatement → ℕ
  | insert _ columns => columns.length
  | update _ sets keys => sets.length + keys.length
  | delete _ _ count => count
  | upsert s => s.inserted.length

/-- The rows of its table after a statement. -/
def execRows : DmlStatement → List NamedRow → List NamedRow
  | insert tableName columns, rows =>
    rows ++ [insertedRow columns params (schema.defaults tableName)]
  | update _ sets keys, rows => rows.map fun r =>
    if HasValues keys (params.drop sets.length) r then insertedRow sets params r else r
  -- a comparison with NULL is not true
  | delete _ column count, rows => rows.filter fun r =>
    ¬ (r column ≠ .null ∧ r column ∈ params.take count)
  | upsert s, rows => s.exec schema.cast params (schema.unique s.tableName)
    (schema.defaults s.tableName) rows

/-- The tables after a statement. -/
def exec (s : DmlStatement) (tables : Tables) : Tables :=
  Function.update tables s.tableName (s.execRows schema params (tables s.tableName))

end DmlStatement

/-- A server that does what it reads in a text, and nothing where it can read nothing. -/
def tableServer (d : Dialect) (kind : ServerKind) (schema : Schema) (fails : Driver)
    (spoils : List DriverCall → DriverCall → Tables → Tables) : Server Tables where
  kind := kind
  exec sql params tables :=
    (readDml d (d.write sql)).elim tables fun s => s.exec schema params tables
  fails := fails
  spoils := spoils

/-! ## What the operations are for -/

section Entities

variable {E : Type}

/-- A row with the members of an entity in columns. -/
def entityRow (columns : List (ColumnDef E)) (entity : E) (r : NamedRow) : NamedRow :=
  fun name => (columns.find? (·.name = name)).elim (r name) (·.value entity)

/-- The row has the key of an entity. -/
def HasKey (table : TableDef E) (entity : E) (r : NamedRow) : Prop :=
  ∀ c ∈ table.pkColumns, c.value entity ≠ .null ∧ r c.name = c.value entity

instance (table : TableDef E) (entity : E) (r : NamedRow) : Decidable (HasKey table entity r) :=
  inferInstanceAs (Decidable (∀ c ∈ table.pkColumns, _))

end Entities

namespace BatchOperation

/-- The table of an operation. -/
def tableName : BatchOperation → String
  | insertMany table _ _ => table.name
  | deleteMany table _ _ _ => table.name
  | updateMany table _ _ => table.name
  | upsertMany table _ _ _ => table.name

/-- The rows of its table after an operation. -/
def effectRows (schema : Schema) : BatchOperation → List NamedRow → List NamedRow
  | insertMany table entities _, rows =>
    rows ++ entities.map fun e => entityRow table.insertColumns e (schema.defaults table.name)
  | deleteMany table toBoundValue ids _, rows =>
    match table.pkColumns with
    | [pk] => rows.filter fun r => ∀ id ∈ ids, ¬ (r pk.name ≠ .null ∧ r pk.name = toBoundValue id)
    | _ => rows
  | updateMany table entities _, rows => entities.foldl (fun rows e =>
    rows.map fun r => if HasKey table e r then entityRow table.nonPkColumns e r else r) rows
  | upsertMany table entities conflictColumns updateColumns, rows =>
    let conflict := table.conflictColumns conflictColumns
    entities.foldl (fun rows e => upsertRows conflict (table.updateColumns conflict updateColumns)
      (entityRow table.columns e (schema.defaults table.name)) rows) rows

/-- The tables after an operation. -/
def effect (schema : Schema) (op : BatchOperation) (tables : Tables) : Tables :=
  Function.update tables op.tableName (op.effectRows schema (tables op.tableName))

/-- The operation has statements, and they are what it needs : there are columns to insert
by arrays, columns to update, columns to match on. MySQL matches on the unique key of the
table, and the casts that Informix makes of the first entity have to suit the others. -/
def WellPosed (schema : Schema) (conn : Connection) : BatchOperation → Prop
  | insertMany table entities chunkSize =>
    ¬ (insertMany table entities chunkSize).DropsRows conn
  | deleteMany _ _ _ _ => True
  | updateMany table _ _ => table.nonPkColumns ≠ []
  | upsertMany table entities conflictColumns _ =>
    table.columns ≠ [] ∧ table.conflictColumns conflictColumns ≠ [] ∧
      (conn.dialect = .mysql →
        schema.unique table.name = table.conflictColumns conflictColumns) ∧
      (conn.dialect = .informix → ∀ front ∈ entities.head?, ∀ e ∈ entities, ∀ c ∈ table.columns,
        schema.cast (Dialect.informixCastType (c.value front)) (c.value e) = c.value e)

end BatchOperation

/-! ## Rows and their values -/

section Rows

variable {E : Type}

/-- Values that are given column by column. -/
theorem insertedRow_rowValues (columns : List (ColumnDef E)) (entity : E) (r : NamedRow) :
    insertedRow (columns.map (·.name)) (rowValues columns entity) r =
      entityRow columns entity r := by
  ext name
  unfold insertedRow entityRow rowValues
  rw [List.zip_map']
  induction columns with
  | nil => rfl
  | cons c columns ih =>
    rw [List.map_cons, List.lookup_cons, List.find?_cons]
    by_cases h : c.name = name
    · simp [h]
    · have hne : (name == c.name) = false := beq_false_of_ne (Ne.symm h)
      simp only [hne, h, decide_false]
      exact ih

/-- More values than columns. -/
theorem insertedRow_append {columns : List String} {values : List BoundValue}
    (h : columns.length = values.length) (more : List BoundValue) (r : NamedRow) :
    insertedRow columns (values ++ more) r = insertedRow columns values r := by
  have hzip : (columns ++ []).zip (values ++ more) = columns.zip values ++ [].zip more :=
    List.zip_append h
  rw [List.append_nil, List.zip_nil_left, List.append_nil] at hzip
  unfold insertedRow
  rw [hzip]

theorem hasValues_iff (table : TableDef E) (entity : E) (r : NamedRow) :
    HasValues (table.pkColumns.map (·.name)) (rowValues table.pkColumns entity) r ↔
      HasKey table entity r := by
  unfold HasValues HasKey rowValues
  rw [List.zip_map', List.forall_mem_map]

end Rows

/-! ## Statements one after another -/

section Statements

variable {d : Dialect} {kind : ServerKind} {schema : Schema} {fails : Driver}
  {spoils : List DriverCall → DriverCall → Tables → Tables} {α : Type}

/-- Statements for one table, each of which is read back. -/
theorem execAll_read {sql : α → Text} {params : α → List BoundValue} {s : α → DmlStatement}
    {name : String} (xs : List α)
    (hread : ∀ x ∈ xs, readDml d (d.write (sql x)) = some (s x))
    (hname : ∀ x ∈ xs, (s x).tableName = name) (tables : Tables) :
    (tableServer d kind schema fails spoils).execAll (xs.map fun x => (sql x, params x)) tables =
      Function.update tables name
        (xs.foldl (fun rows x => (s x).execRows schema (params x) rows) (tables name)) := by
  induction xs generalizing tables with
  | nil => exact (Function.update_eq_self name tables).symm
  | cons x xs ih =>
    have hone : (tableServer d kind schema fails spoils).exec (sql x) (params x) tables =
        Function.update tables name ((s x).execRows schema (params x) (tables name)) := by
      have hx := hread x List.mem_cons_self
      rw [tableServer]
      simp only [hx, Option.elim_some]
      rw [DmlStatement.exec, hname x List.mem_cons_self]
    rw [List.map_cons, Server.execAll, List.foldl_cons, hone]
    refine (ih (fun y hy => hread y (List.mem_cons_of_mem x hy))
      (fun y hy => hname y (List.mem_cons_of_mem x hy)) _).trans ?_
    rw [Function.update_idem, Function.update_self, List.foldl_cons]

/-- Filters one after another are one filter. -/
theorem foldl_filters {β : Type} (p : α → β → Prop) [∀ x b, Decidable (p x b)] (xs : List α)
    (bs : List β) : xs.foldl (fun bs x => bs.filter fun b => p x b) bs =
      bs.filter fun b => ∀ x ∈ xs, p x b := by
  induction xs generalizing bs with
  | nil => simp
  | cons x xs ih =>
    rw [List.foldl_cons, ih, List.filter_filter]
    refine List.filter_congr fun b _ => ?_
    rw [Bool.and_comm]
    simp

end Statements

/-! ## The statements of the operations -/

section Operations

open DmlStatement

variable {d : Dialect} {schema : Schema} {E : Type} (table : TableDef E) (rows : List NamedRow)

theorem execRows_insert (entity : E) :
    (DmlStatement.insert table.name (table.insertColumns.map (·.name))).execRows schema
        (rowValues table.insertColumns entity) rows =
      rows ++ [entityRow table.insertColumns entity (schema.defaults table.name)] := by
  rw [execRows, insertedRow_rowValues]

theorem execRows_update (entity : E) :
    (DmlStatement.update table.name (table.nonPkColumns.map (·.name))
      (table.pkColumns.map (·.name))).execRows schema
        (rowValues (DbContext.updateOrder table) entity) rows =
      rows.map fun r => if HasKey table entity r then entityRow table.nonPkColumns entity r
        else r := by
  have hvalues : rowValues (DbContext.updateOrder table) entity =
      rowValues table.nonPkColumns entity ++ rowValues table.pkColumns entity :=
    List.map_append
  have hlength : (table.nonPkColumns.map (·.name)).length =
      (rowValues table.nonPkColumns entity).length := by
    rw [List.length_map, length_rowValues]
  rw [execRows, hvalues, hlength, List.drop_left]
  simp only [hasValues_iff, insertedRow_append hlength, insertedRow_rowValues]

/-- The values of a statement that was made for other values : each is cast to the type of
the one it was made for. -/
theorem newRow_casts {tableName : String} {ins conflict upd : List String}
    {made params : List BoundValue} {cast : UpsertStatement.Cast} {defaults : NamedRow}
    (hmade : made.length = ins.length) (hparams : params.length = ins.length)
    (hcast : d = .informix → ∀ p ∈ made.zip params,
      cast (Dialect.informixCastType p.1) p.2 = p.2) :
    (d.upsertStatement tableName ins made conflict upd).newRow cast params defaults =
      insertedRow ins params defaults := by
  have hvalue : ∀ i (hi : i < params.length), UpsertStatement.paramValue cast params
      ⟨i, d.upsertCast (made[i]?.getD .null)⟩ = params[i] := by
    intro i hi
    have hi' : i < made.length := by omega
    have hget : made[i]?.getD .null = made[i] := by
      rw [List.getElem?_eq_getElem hi', Option.getD_some]
    have hget' : params[i]?.getD .null = params[i] := by
      rw [List.getElem?_eq_getElem hi, Option.getD_some]
    rw [UpsertStatement.paramValue, hget, hget']
    cases d with
    | informix =>
      have hmem : (made[i], params[i]) ∈ made.zip params := by
        rw [← List.getElem_zip (h := by simp; omega)]
        exact List.getElem_mem _
      exact hcast rfl _ hmem
    | _ => rfl
  have hmap : (d.upsertStatement tableName ins made conflict upd).inserted.map
      (fun p => (p.1, UpsertStatement.paramValue cast params p.2)) = ins.zip params := by
    refine List.ext_getElem (by simp [Dialect.upsertStatement, hparams]) fun i hi hi' => ?_
    have hi : i < params.length := by simp at hi'; omega
    simp [Dialect.upsertStatement, hvalue i hi]
  ext name
  unfold UpsertStatement.newRow insertedRow
  rw [← hmap]
  induction (d.upsertStatement tableName ins made conflict upd).inserted with
  | nil => rfl
  | cons p l ih =>
    rw [List.map_cons, List.lookup_cons, List.lookup_cons]
    split
    · rfl
    · exact ih

/-- The statement that an upsert of `front` was made for, with the values of an entity. -/
theorem execRows_upsert {conflict upd : List String} {front entity : E}
    (hconflict : conflict ≠ []) (hunique : d = .mysql → schema.unique table.name = conflict)
    (hcast : d = .informix → ∀ c ∈ table.columns,
      schema.cast (Dialect.informixCastType (c.value front)) (c.value entity) = c.value entity) :
    (DmlStatement.upsert (d.upsertStatement table.name table.columnNames
      (rowValues table.columns front) conflict upd)).execRows schema
        (rowValues table.columns entity) rows =
      upsertRows conflict upd
        (entityRow table.columns entity (schema.defaults table.name)) rows := by
  have hkey : (d.upsertStatement table.name table.columnNames (rowValues table.columns front)
      conflict upd).matchedOn.getD (schema.unique table.name) = conflict := by
    cases d with
    | mysql => exact hunique rfl
    | _ => rfl
  have hnames : ∀ e, (rowValues table.columns e).length = table.columnNames.length := by
    intro e
    rw [length_rowValues, TableDef.columnNames, List.length_map]
  have hnew : (d.upsertStatement table.name table.columnNames (rowValues table.columns front)
      conflict upd).newRow schema.cast (rowValues table.columns entity)
        (schema.defaults table.name) =
      entityRow table.columns entity (schema.defaults table.name) := by
    rw [← insertedRow_rowValues]
    refine newRow_casts (hnames front) (hnames entity) fun hd p hp => ?_
    rw [rowValues, rowValues, List.zip_map', List.mem_map] at hp
    obtain ⟨c, hc, rfl⟩ := hp
    exact hcast hd c hc
  change UpsertStatement.exec schema.cast (rowValues table.columns entity)
    (schema.unique table.name) (schema.defaults table.name) _ rows = _
  unfold UpsertStatement.exec upsertRows
  rw [hkey, hnew]
  refine if_congr Iff.rfl (List.map_congr_left fun r _ => ?_) rfl
  split
  · rename_i h
    exact setRow_upsertStatement hconflict h
  · rfl

/-- The rows that have one of the keys of a chunk, for one chunk after another. -/
theorem foldl_deletes {K : Type} (pk : ColumnDef E) (toBoundValue : K → BoundValue)
    (parts : List (List K)) :
    parts.foldl (fun rows part => (DmlStatement.delete table.name pk.name part.length).execRows
        schema (part.map toBoundValue) rows) rows =
      rows.filter fun r => ∀ id ∈ parts.flatten,
        ¬ (r pk.name ≠ .null ∧ r pk.name = toBoundValue id) := by
  simp only [execRows]
  rw [foldl_filters (fun (part : List K) (r : NamedRow) => ¬ (r pk.name ≠ .null ∧
    r pk.name ∈ (part.map toBoundValue).take part.length))]
  refine List.filter_congr fun r _ => decide_eq_decide.mpr ?_
  have hpart : ∀ part : List K, (part.map toBoundValue).take part.length =
      part.map toBoundValue := by
    intro part
    exact List.take_of_length_le (by simp)
  simp only [hpart, List.mem_flatten, List.mem_map]
  constructor
  · rintro h id ⟨part, hp, hid⟩ ⟨hnull, heq⟩
    exact h part hp ⟨hnull, id, hid, heq.symm⟩
  · rintro h part hp ⟨hnull, id, hid, heq⟩
    exact h id ⟨part, hp, hid⟩ ⟨hnull, heq.symm⟩

end Operations

section Refinement

variable {kind : ServerKind} {schema : Schema} {fails : Driver}
  {spoils : List DriverCall → DriverCall → Tables → Tables} {conn : Connection}

/-- An update of entities has a key. -/
theorem pkColumns_ne_nil {E : Type} {table : TableDef E} {entities : List E} {e : E}
    {chunkSize : ℕ} {p? : Option BatchPlan}
    (hplan : BatchOperation.plan conn (.updateMany table entities chunkSize) = .ok p?)
    (he : e ∈ entities) : table.pkColumns ≠ [] := by
  rcases plan_updateMany_cases hplan with ⟨rfl, -⟩ | ⟨-, hpk, -⟩ | ⟨-, hpk, -⟩
  · contradiction
  · exact hpk
  · exact hpk

/-- The statements of an operation that does not reject its arguments, as they are read in
their texts, have its effect. -/
theorem execAll_statements {op : BatchOperation} (hop : op.WellPosed schema conn)
    {p? : Option BatchPlan} (hplan : op.plan conn = .ok p?) (tables : Tables) :
    (tableServer conn.dialect kind schema fails spoils).execAll (op.statements conn) tables =
      op.effect schema tables := by
  cases op with
  | insertMany table entities chunkSize =>
    unfold BatchOperation.statements BatchOperation.effect BatchOperation.effectRows
    rw [execAll_read entities (fun _ _ => read_insertSql table) fun _ _ => rfl]
    simp only [execRows_insert, List.foldl_append_eq_append, ← List.flatMap_def,
      ← List.map_eq_flatMap]
    rfl
  | deleteMany table toBoundValue ids chunkSize =>
    unfold BatchOperation.statements BatchOperation.effect BatchOperation.effectRows
    simp only [BatchOperation.tableName]
    rcases hpk : table.pkColumns with _ | ⟨pk, _ | ⟨pk', more⟩⟩
    · exact (Function.update_eq_self table.name tables).symm
    · simp only
      split
      · -- a chunk of one key each
        rw [execAll_read ids (fun _ _ => read_deleteSql table pk) fun _ _ => rfl]
        have hsingle := @foldl_deletes schema _ table (tables table.name) _ pk toBoundValue
          (ids.map fun id => [id])
        rw [List.foldl_map, ← List.flatMap_def, ← List.map_eq_flatMap, List.map_id'] at hsingle
        exact congrArg (Function.update tables table.name) hsingle
      · have hsize := chunkSizeOr_ne_zero conn chunkSize
        rw [execAll_read (chunks (conn.chunkSizeOr chunkSize) ids)
          (fun part hpart => read_deleteInSql table pk fun hlength =>
            ne_nil_of_mem_chunks (Nat.pos_of_ne_zero hsize) hpart
              (List.length_eq_zero_iff.mp hlength)) fun _ _ => rfl]
        rw [foldl_deletes, flatten_chunks hsize]
    · exact (Function.update_eq_self table.name tables).symm
  | updateMany table entities chunkSize =>
    unfold BatchOperation.statements BatchOperation.effect BatchOperation.effectRows
    rw [execAll_read entities
      (fun e he => read_updateSql table hop (pkColumns_ne_nil hplan he)) fun _ _ => rfl]
    simp only [execRows_update]
    rfl
  | upsertMany table entities conflictColumns updateColumns =>
    cases entities with
    | nil => exact (Function.update_eq_self table.name tables).symm
    | cons front rest =>
      obtain ⟨hcolumns, hconflict, hunique, hcast⟩ := hop
      have hins : table.columnNames ≠ [] := by simpa [TableDef.columnNames] using hcolumns
      have hsql := DbContext.upsertSql_eq conn table conflictColumns updateColumns front
      rw [generateUpsert_eq_write _ _ _ _ hins hconflict] at hsql
      unfold BatchOperation.statements BatchOperation.effect BatchOperation.effectRows
      simp only [hsql, BatchOperation.tableName]
      rw [execAll_read (front :: rest) (fun _ _ => read_upsert conn.dialect table.name _ _ hins
        hconflict) fun _ _ => rfl]
      congr 1
      refine List.foldl_ext _ _ _ fun rows e he => ?_
      exact execRows_upsert table rows hconflict hunique fun hd c hc =>
        hcast hd front rfl e he c hc

/-- Every text that an operation executes is read as one statement on its table, which has
a marker for each of the parameters. -/
theorem statements_read {op : BatchOperation} (hop : op.WellPosed schema conn)
    {p? : Option BatchPlan} (hplan : op.plan conn = .ok p?) :
    ∀ st ∈ op.statements conn, ∃ s, readDml conn.dialect (conn.dialect.write st.1) = some s ∧
      s.tableName = op.tableName ∧ s.markers = st.2.length := by
  intro st hst
  cases op with
  | insertMany table entities chunkSize =>
    obtain ⟨e, -, rfl⟩ := List.mem_map.mp hst
    refine ⟨_, read_insertSql table, rfl, ?_⟩
    rw [DmlStatement.markers, List.length_map, length_rowValues]
  | deleteMany table toBoundValue ids chunkSize =>
    unfold BatchOperation.statements at hst
    rcases hpk : table.pkColumns with _ | ⟨pk, _ | ⟨pk', more⟩⟩
    · simp [hpk] at hst
    · simp only [hpk] at hst
      split at hst
      · obtain ⟨id, -, rfl⟩ := List.mem_map.mp hst
        exact ⟨_, read_deleteSql table pk, rfl, rfl⟩
      · obtain ⟨part, hpart, rfl⟩ := List.mem_map.mp hst
        have hne := ne_nil_of_mem_chunks
          (Nat.pos_of_ne_zero (chunkSizeOr_ne_zero conn chunkSize)) hpart
        refine ⟨_, read_deleteInSql table pk fun h => hne (List.length_eq_zero_iff.mp h), rfl, ?_⟩
        exact (List.length_map _).symm
    · simp [hpk] at hst
  | updateMany table entities chunkSize =>
    obtain ⟨e, he, rfl⟩ := List.mem_map.mp hst
    refine ⟨_, read_updateSql table hop (pkColumns_ne_nil hplan he), rfl, ?_⟩
    rw [DmlStatement.markers, length_rowValues, DbContext.updateOrder, List.length_append,
      List.length_map, List.length_map]
  | upsertMany table entities conflictColumns updateColumns =>
    cases entities with
    | nil => contradiction
    | cons front rest =>
      obtain ⟨hcolumns, hconflict, -⟩ := hop
      have hins : table.columnNames ≠ [] := by simpa [TableDef.columnNames] using hcolumns
      have hsql := DbContext.upsertSql_eq conn table conflictColumns updateColumns front
      rw [generateUpsert_eq_write _ _ _ _ hins hconflict] at hsql
      unfold BatchOperation.statements at hst
      simp only [hsql] at hst
      obtain ⟨e, -, rfl⟩ := List.mem_map.mp hst
      refine ⟨_, read_upsert conn.dialect table.name _ _ hins hconflict, rfl, ?_⟩
      simp [DmlStatement.markers, Dialect.upsertStatement, TableDef.columnNames, length_rowValues]

end Refinement

/-- A database without defaults, whose casts keep a value. -/
def plainSchema (key : List String) : Schema :=
  ⟨fun _ _ => .null, fun _ => key, fun _ v => v⟩

/-- Keys in chunks, for a database without arrays. -/
theorem statements_read_ratings :
    let conn := { postgresConnection with dialect := .mysql, arrayBatchInsert := false }
    let op : BatchOperation := .deleteMany ratingsTable BoundValue.int64 [1, 2, 3] 2
    ∀ st ∈ op.statements conn, ∃ s, readDml .mysql (Dialect.write .mysql st.1) = some s ∧
      s.tableName = "ratings" ∧ s.markers = st.2.length :=
  @statements_read (plainSchema []) _ _ trivial _ rfl

/-! ## Requests -/

/-- An operation on a connection, and what goes wrong while it runs. -/
structure BatchRequest (d : Dialect) (schema : Schema) where
  op : BatchOperation
  conn : Connection
  dialect_eq : conn.dialect = d
  wellPosed : op.WellPosed schema conn
  /-- The calls that throw. -/
  fails : Driver
  /-- What a statement that throws leaves behind. -/
  spoils : List DriverCall → DriverCall → Tables → Tables

namespace BatchRequest

variable {d : Dialect} {schema : Schema} (kind : ServerKind) (db : Database Tables)

/-- The server that a request meets. -/
def server (r : BatchRequest d schema) : Server Tables :=
  tableServer d kind schema r.fails r.spoils

/-- How a request ends, and the calls it has made. -/
def run (r : BatchRequest d schema) : Except Exn Unit × List DriverCall :=
  r.op.run (r.conn.on (r.server kind) db) []

/-- The database after a request. -/
def serve (r : BatchRequest d schema) : Database Tables :=
  (r.server kind).after db (r.run kind db).2

/-- The tables after a request that ended so. -/
def outcome (r : BatchRequest d schema) (tables : Tables) : Except Exn Unit → Tables
  | .ok _ => r.op.effect schema tables
  | .error _ => tables

/-- The database after requests, one after another. -/
def serveAll (rs : List (BatchRequest d schema)) : Database Tables :=
  rs.foldl (serve kind) db

/-- The requests that return. -/
def returning : Database Tables → List (BatchRequest d schema) → List (BatchRequest d schema)
  | _, [] => []
  | db, r :: rs =>
    if (r.run kind db).1.isOk then r :: returning (r.serve kind db) rs
    else returning (r.serve kind db) rs

variable {kind db} {tables : Tables}

/-- A request has its effect if it returns, and none if it throws. -/
theorem serve_settled (r : BatchRequest d schema) (h : db.store.Settled tables) :
    (r.serve kind db).store.Settled (r.outcome tables (r.run kind db).1) := by
  have hdurable : db.store.durable = tables := by rw [h]
  have hdrops : ¬ r.op.DropsRows r.conn := by
    have hop := r.wellPosed
    cases hr : r.op with
    | insertMany table entities chunkSize =>
      rw [hr] at hop
      exact hop
    | _ => exact id
  have hall := allOrNothing (r.server kind) r.conn (by rw [h]) hdrops
    fun _ _ _ _ _ => rfl
  unfold AllOrNothing at hall
  unfold serve
  cases hrun : r.run kind db with
  | mk a log =>
    rw [show r.op.run (r.conn.on (r.server kind) db) [] = (a, log) from hrun] at hall
    cases a with
    | error e =>
      rw [← hdurable]
      exact hall.1
    | ok u =>
      have hplan : ∃ p?, r.op.plan r.conn = .ok p? := by
        rw [run, BatchOperation.run_eq, plan_on] at hrun
        cases hp : r.op.plan r.conn with
        | ok p? => exact ⟨p?, rfl⟩
        | error e =>
          rw [hp] at hrun
          have hthrow : (.error e : Except Exn Unit) = .ok u := congrArg Prod.fst hrun
          contradiction
      obtain ⟨p?, hplan⟩ := hplan
      have heffect : (tableServer r.conn.dialect kind schema r.fails r.spoils).execAll
          (r.op.statements r.conn) db.store.durable = r.op.effect schema db.store.durable :=
        execAll_statements r.wellPosed hplan _
      rw [r.dialect_eq] at heffect
      rw [outcome, ← hdurable, ← heffect]
      exact hall.2

end BatchRequest

/-- An `upsert_many` of ratings, where some calls throw. -/
def rateFilms (ratings : List (Int64 × Option Int64)) (fails : Driver) :
    BatchRequest .informix (plainSchema ["film"]) where
  op := .upsertMany ratingsTable ratings [] []
  conn := { postgresConnection with dialect := .informix, arrayBatchInsert := false }
  dialect_eq := rfl
  wellPosed := ⟨List.cons_ne_nil _ _, List.cons_ne_nil _ _, fun _ => rfl, fun _ _ _ _ _ _ _ => rfl⟩
  fails := fails
  spoils _ _ tables := tables

end CppLinq
