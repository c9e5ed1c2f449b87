import CppLinq.BatchAlignment
import CppLinq.Readers
import CppLinq.SqlPieces
import CppLinq.UpsertStatements

/-!
# The statements that change rows

What a server reads in the text of an `INSERT`, an `UPDATE`, a `DELETE` or an upsert of
`core/db_context.h` (`readDml`). A marker is a `?`, and the parameters are numbered by the
order of the markers.

The texts that `DbContext` sends are read back, whatever the names in them are
(`read_insertSql`, `read_updateSql`, `read_deleteSql`, `read_deleteInSql`).
-/

namespace CppLinq

/-- A statement that changes the rows of one table. -/
inductive DmlStatement
  | insert (tableName : String) (columns : List String)
  | update (tableName : String) (sets keys : List String)
  /-- The rows with one of `count` values in a column. -/
  | delete (tableName : String) (column : String) (count : ℕ)
  | upsert (s : UpsertStatement)

/-! ## Reading -/

section Readers

open Reader

/-- Symbols up to the first place where `stop` begins. -/
def readUntil (stop : List Char) : Reader Char (List Char)
  | [] => none
  | c :: cs =>
    if stop.isPrefixOf (c :: cs) then some ([], c :: cs)
    else (readUntil stop cs).map fun p => (c :: p.1, p.2)

variable (d : Dialect)

/-- A quoted name. -/
def readName : Reader Char String :=
  fun s => (readDelimited d.quotes s).map fun p => (String.ofList p.1, p.2)

/-- Names with commas between them. -/
def readNames : Reader Char (List String) :=
  sepBy ", ".toList (readName d)

/-- Markers with commas between them. -/
def readMarkers : Reader Char (List Unit) :=
  sepBy ", ".toList (exactly "?".toList)

/-- `c = ?`. -/
def readEquality : Reader Char String := do
  let c ← readName d
  exactly " = ?".toList
  return c

/-- How a dialect names a column of the row that is there. -/
def readOld : Reader Char String := do
  exactly (match d with
    | .sqlite | .postgres | .mysql => []
    | .mssql => "[target].".toList
    | .informix | .oracle => "target.".toList)
  readName d

/-- How a dialect names a column of the new row. -/
def readNew : Reader Char String :=
  match d with
  | .sqlite | .postgres => do
    exactly "EXCLUDED.".toList
    readName d
  | .mysql => do
    exactly "VALUES(".toList
    let c ← readName d
    exactly ")".toList
    return c
  | .mssql => do
    exactly "[source].".toList
    readName d
  | .informix | .oracle => do
    exactly "source.".toList
    readName d

/-- A column with the value that is set in it. -/
def readSet : Reader Char (String × SetValue) := do
  let c ← readOld d
  exactly " = ".toList
  let v ← (do let c' ← readNew d; return .new c') <|> (do let c' ← readOld d; return .old c')
  return (c, v)

/-- The assignments of a `SET`. -/
def readSets : Reader Char (List (String × SetValue)) :=
  sepBy ", ".toList (readSet d)

/-- The columns of a new row, with their markers numbered. -/
def numberedColumns (columns : List (String × Option String)) : List (String × UpsertParam) :=
  columns.mapIdx fun i c => (c.1, ⟨i, c.2⟩)

/-- What follows the values of an `INSERT` that is an upsert. -/
def readConflict (tableName : String) (columns : List String) : Reader Char DmlStatement :=
  let inserted := numberedColumns (columns.map fun c => (c, none))
  match d with
  | .sqlite | .postgres => do
    exactly " ON CONFLICT (".toList
    let key ← readNames d
    (do
      exactly ") DO NOTHING".toList
      atEnd
      return .upsert ⟨tableName, inserted, some key, []⟩) <|> do
      exactly ") DO UPDATE SET ".toList
      let sets ← readSets d
      atEnd
      return .upsert ⟨tableName, inserted, some key, sets⟩
  | .mysql => do
    exactly " ON DUPLICATE KEY UPDATE ".toList
    let sets ← readSets d
    atEnd
    return .upsert ⟨tableName, inserted, none, sets⟩
  | _ => failure

/-- An `INSERT`, with what it does where a row is there already. -/
def readInsert : Reader Char DmlStatement := do
  exactly "INSERT INTO ".toList
  let tableName ← readName d
  (do
    exactly " DEFAULT VALUES".toList
    atEnd
    return .insert tableName []) <|> do
    exactly " (".toList
    let columns ← readNames d
    exactly ") VALUES (".toList
    let markers ← readMarkers
    exactly ")".toList
    if markers.length = columns.length then
      (do
        atEnd
        return .insert tableName columns) <|> readConflict d tableName columns
    else failure

/-- An `UPDATE` by keys. -/
def readUpdate : Reader Char DmlStatement := do
  exactly "UPDATE ".toList
  let tableName ← readName d
  exactly " SET ".toList
  let sets ← sepBy ", ".toList (readEquality d)
  exactly " WHERE ".toList
  let keys ← sepBy " AND ".toList (readEquality d)
  atEnd
  return .update tableName sets keys

/-- A `DELETE` by one key or by a list of keys. -/
def readDelete : Reader Char DmlStatement := do
  exactly "DELETE FROM ".toList
  let tableName ← readName d
  exactly " WHERE ".toList
  let column ← readName d
  (do
    exactly " = ?".toList
    atEnd
    return .delete tableName column 1) <|> do
    exactly " IN (".toList
    let markers ← readMarkers
    exactly ")".toList
    atEnd
    return .delete tableName column markers.length

/-- `target.c = source.c` for a column. -/
def readMatch : Reader Char String := do
  let c ← readOld d
  exactly " = ".toList
  let c' ← readNew d
  if c = c' then return c else failure

/-- The row that is merged, as columns with the types they are cast to. -/
def readSource : Reader Char (List (String × Option String)) :=
  match d with
  | .mssql => do
    exactly " WITH (HOLDLOCK) AS [target] USING (VALUES (".toList
    let markers ← readMarkers
    exactly ")) AS [source] (".toList
    let columns ← readNames d
    exactly ")".toList
    if markers.length = columns.length then return columns.map fun c => (c, none) else failure
  | .informix => do
    exactly " AS target USING (SELECT ".toList
    let columns ← sepBy ", ".toList (do
      exactly "CAST(? AS ".toList
      let type ← readUntil ") AS ".toList
      exactly ") AS ".toList
      let c ← readName d
      return (c, some (String.ofList type)))
    exactly " FROM \"informix\".systables WHERE tabid = 1) AS source".toList
    return columns
  | _ => do
    exactly " target USING (SELECT ".toList
    let columns ← sepBy ", ".toList (do
      exactly "? AS ".toList
      readName d)
    exactly " FROM DUAL) source".toList
    return columns.map fun c => (c, none)

/-- A `MERGE`. -/
def readMerge : Reader Char DmlStatement := do
  exactly "MERGE INTO ".toList
  let tableName ← readName d
  let columns ← readSource d
  exactly " ON (".toList
  let key ← sepBy " AND ".toList (readMatch d)
  exactly ")".toList
  let sets ← (do
    exactly " WHEN MATCHED THEN UPDATE SET ".toList
    readSets d) <|> pure []
  exactly " WHEN NOT MATCHED THEN INSERT (".toList
  let names ← readNames d
  exactly ") VALUES (".toList
  let values ← sepBy ", ".toList (readNew d)
  exactly (if d = .mssql then ");".toList else ")".toList)
  atEnd
  if names = columns.map Prod.fst ∧ values = names then
    return .upsert ⟨tableName, numberedColumns columns, some key, sets⟩
  else failure

end Readers

/-- What a server reads in a text. -/
def readDml (d : Dialect) (cs : List Char) : Option DmlStatement :=
  (((readInsert d <|> readUpdate d) <|> (readDelete d <|> readMerge d)).run cs).map Prod.fst

/-! ## The texts of names and markers -/

section Names

open Reader

variable {d : Dialect} {rest : List Char}

/-- What follows is no part of a quoted name. -/
def Stops (d : Dialect) (rest : List Char) : Prop :=
  rest.head? ≠ some d.quotes.closing

theorem stops_nil : Stops d [] := by
  simp [Stops]

/-- No quoted name goes on with a blank, a comma or a parenthesis. -/
theorem stops_append {s : String} {c : Char} (hs : s.toList.head? = some c)
    (hc : c ∈ [' ', ',', ')']) (rest : List Char) : Stops d (s.toList ++ rest) := by
  have hclosing : c ≠ d.quotes.closing := by
    simp only [List.mem_cons, List.not_mem_nil, or_false] at hc
    obtain rfl | rfl | rfl := hc <;> cases d <;> decide
  rw [Stops, List.head?_append, hs]
  exact fun h => hclosing (Option.some.inj h)

theorem takes_name (id : String) (hrest : Stops d rest) :
    Takes (readName d) (d.write (d.quoteId id)) id rest := by
  unfold Takes readName
  rw [StateT.run, write_quoteId, readDelimited_quoteChars hrest]
  simp

/-- A list of texts, separated. -/
theorem write_joinSep (sep : String) (ts : List Text) :
    d.write (joinSep (lit sep) ts) = sep.toList.intercalate (ts.map d.write) := by
  induction ts with
  | nil => rfl
  | cons t ts ih =>
    cases ts with
    | nil => rw [joinSep, List.map_singleton, List.intercalate_singleton]
    | cons u ts =>
      simp only [joinSep, write_append, write_lit, ih, List.map_cons, List.intercalate_cons_cons]

/-- Elements that are read before whatever stops a name. -/
theorem takes_joinSep {ι α : Type} {p : Reader Char α} {text : ι → Text} (value : ι → α)
    {is : List ι} (sep : String) {c : Char} (hne : is ≠ [])
    (hitem : ∀ i ∈ is, ∀ r, Stops d r → Takes p (d.write (text i)) (value i) r)
    (hsep : sep.toList.head? = some c) (hc : c ∈ [' ', ',', ')']) (hrest : Stops d rest)
    (hnone : rest.dropPrefix? sep.toList = none) :
    Takes (sepBy sep.toList p) (d.write (joinSep (lit sep) (is.map text))) (is.map value)
      rest := by
  have hne' : sep.toList ≠ [] := fun h => by rw [h] at hsep; contradiction
  rw [write_joinSep, List.map_map]
  exact takes_sepBy (d.write ∘ text) value hne' hne
    (fun i hi r => hitem i hi _ (stops_append hsep hc r)) (fun i hi => hitem i hi rest hrest) hnone

/-- Names with commas are read back. -/
theorem takes_names {names : List String} (hne : names ≠ []) (hrest : Stops d rest)
    (hnone : rest.dropPrefix? ", ".toList = none) :
    Takes (readNames d) (d.write (d.columnList names)) names rest := by
  have htakes := takes_joinSep id (p := readName d) ", " hne
    (fun id _ _ hr => takes_name id hr) rfl (by decide) hrest hnone
  rwa [List.map_id] at htakes

theorem takes_marker (i : ℕ) (rest : List Char) :
    Takes (exactly "?".toList) (d.write (placeholder i)) () rest :=
  takes_exactly "?".toList rest

/-- Markers are read as so many. -/
theorem takes_markers {n : ℕ} (hn : n ≠ 0) (hrest : Stops d rest)
    (hnone : rest.dropPrefix? ", ".toList = none) :
    Takes readMarkers (d.write (Dialect.placeholderList n)) ((List.range n).map fun _ => ())
      rest :=
  takes_joinSep (fun _ => ()) ", " (by simpa using hn) (fun i _ r _ => takes_marker i r) rfl
    (by decide) hrest hnone

theorem takes_equality (c : String) (k : ℕ) (rest : List Char) :
    Takes (readEquality d) (d.write (d.quoteId c ++ lit " = " ++ placeholder k)) c rest := by
  have htext : d.write (d.quoteId c ++ lit " = " ++ placeholder k) =
      d.write (d.quoteId c) ++ (" = ?".toList ++ []) := by
    rw [write_append, write_append, write_lit, List.append_assoc]
    rfl
  rw [htext]
  refine Takes.bind (takes_name c (stops_append (s := " = ?") rfl (by decide) rest)) ?_
  exact takes_exactly_bind (takes_pure c rest)

/-- Equalities with placeholders are read back. -/
theorem takes_equalities {E : Type} {conn : Connection} {columns : List (ColumnDef E)}
    (hne : columns ≠ []) (k : ℕ) (sep : String) {c : Char} (hsep : sep.toList.head? = some c)
    (hc : c ∈ [' ', ',', ')']) (hrest : Stops conn.dialect rest)
    (hnone : rest.dropPrefix? sep.toList = none) :
    Takes (sepBy sep.toList (readEquality conn.dialect))
      (conn.dialect.write (joinSep (lit sep) (DbContext.equalities conn columns k)))
      (columns.map (·.name)) rest := by
  have hzip : columns.zipIdx ≠ [] := by simpa using hne
  have htakes := takes_joinSep (fun p : ColumnDef E × ℕ => p.1.name) sep hzip
    (fun p _ r _ => takes_equality p.1.name (k + p.2) r) hsep hc hrest hnone
  have hnames : columns.zipIdx.map (fun p => p.1.name) = columns.map (·.name) := by
    calc columns.zipIdx.map (fun p => p.1.name)
        = (columns.zipIdx.map Prod.fst).map (·.name) := by rw [List.map_map]; rfl
      _ = columns.map (·.name) := by rw [List.zipIdx_map_fst]
  rw [← hnames]
  exact htakes

/-! ### The statements of `DbContext` -/

section Statements

variable {conn : Connection} {E : Type} (table : TableDef E)

/-- What is read at the end. -/
theorem Takes.readDml_eq {cs : List Char} {s : DmlStatement}
    (h : Takes ((readInsert d <|> readUpdate d) <|> (readDelete d <|> readMerge d)) cs s []) :
    readDml d cs = some s := by
  rw [Takes, List.append_nil] at h
  rw [readDml, h]
  rfl

theorem takes_end {s : DmlStatement} :
    Takes (do atEnd; return s : Reader Char DmlStatement) [] s [] :=
  rfl

/-- The beginning that an `INSERT` and an upsert have in common. -/
theorem takes_values (tableName : String) {columns : List String} (hne : columns ≠ [])
    {s : DmlStatement} (htail : Takes ((do atEnd; return .insert tableName columns) <|>
      readConflict d tableName columns) rest s []) :
    Takes (readInsert d) ("INSERT INTO ".toList ++ (d.write (d.quoteId tableName) ++
      (" (".toList ++ (d.write (d.columnList columns) ++ (") VALUES (".toList ++
        (d.write (Dialect.placeholderList columns.length) ++ (")".toList ++ rest))))))) s [] := by
  have hlength : columns.length ≠ 0 := fun h => hne (List.length_eq_zero_iff.mp h)
  refine takes_exactly_bind ?_
  refine Takes.bind (takes_name tableName (stops_append (s := " (") rfl (by decide) _)) ?_
  refine Takes.orElse_right (run_bind_eq_none (run_exactly_eq_none rfl)) ?_
  refine takes_exactly_bind ?_
  refine Takes.bind (takes_names hne (stops_append (s := ") VALUES (") rfl (by decide) _) rfl) ?_
  refine takes_exactly_bind ?_
  refine Takes.bind (takes_markers hlength (stops_append (s := ")") rfl (by decide) _) rfl) ?_
  refine takes_exactly_bind ?_
  rw [if_pos (by simp)]
  exact htail

/-- The statements of the batch operations are read back, one lemma for each. -/
theorem read_insertSql :
    readDml conn.dialect (conn.dialect.write (DbContext.insertSql conn table)) =
      some (.insert table.name (table.insertColumns.map (·.name))) := by
  refine Takes.readDml_eq ((Takes.orElse ?_).orElse)
  rw [insertSql_eq, write_append, write_append, write_lit, List.append_assoc]
  split
  · rename_i hempty
    rw [List.isEmpty_iff.mp hempty, write_lit]
    refine takes_exactly_bind ?_
    refine Takes.bind (takes_name table.name ?_)
      (Takes.bind_nil (takes_exactly _ []) takes_end).orElse
    exact stops_append (s := " DEFAULT VALUES") rfl (by decide) []
  · rename_i hne
    have hnames : table.insertColumns.map (·.name) ≠ [] := by simpa using hne
    have hinsert := takes_values (d := conn.dialect) table.name hnames takes_end.orElse
    rw [List.length_map] at hinsert
    simpa only [write_append, write_lit, List.append_assoc, List.append_nil] using hinsert

theorem read_updateSql (hsets : table.nonPkColumns ≠ []) (hkeys : table.pkColumns ≠ []) :
    readDml conn.dialect (conn.dialect.write (DbContext.updateSql conn table)) =
      some (.update table.name (table.nonPkColumns.map (·.name))
        (table.pkColumns.map (·.name))) := by
  refine Takes.readDml_eq (Takes.orElse
    (Takes.orElse_right (run_bind_eq_none (run_exactly_eq_none rfl)) ?_))
  have htext : conn.dialect.write (DbContext.updateSql conn table) =
      "UPDATE ".toList ++ (conn.dialect.write (conn.dialect.quoteId table.name) ++
        (" SET ".toList ++ (conn.dialect.write
            (commaList (DbContext.equalities conn table.nonPkColumns 0)) ++
          (" WHERE ".toList ++ (conn.dialect.write
            (andList (DbContext.equalities conn table.pkColumns table.nonPkColumns.length)) ++
              []))))) := by
    simp only [DbContext.updateSql, write_append, write_lit, List.append_assoc, List.append_nil]
  rw [htext]
  refine takes_exactly_bind ?_
  refine Takes.bind (takes_name table.name (stops_append (s := " SET ") rfl (by decide) _)) ?_
  refine takes_exactly_bind ?_
  refine Takes.bind (takes_equalities hsets 0 ", " rfl (by decide)
    (stops_append (s := " WHERE ") rfl (by decide) _) rfl) ?_
  refine takes_exactly_bind ?_
  exact Takes.bind (takes_equalities hkeys _ " AND " rfl (by decide) stops_nil rfl)
    takes_end

theorem read_deleteSql (pk : ColumnDef E) :
    readDml conn.dialect (conn.dialect.write (DbContext.deleteSql conn table pk)) =
      some (.delete table.name pk.name 1) := by
  refine Takes.readDml_eq (Takes.orElse_right ?_ (Takes.orElse ?_))
  · exact run_orElse_eq_none (run_bind_eq_none (run_exactly_eq_none rfl))
      (run_bind_eq_none (run_exactly_eq_none rfl))
  have htext : conn.dialect.write (DbContext.deleteSql conn table pk) =
      "DELETE FROM ".toList ++ (conn.dialect.write (conn.dialect.quoteId table.name) ++
        (" WHERE ".toList ++ (conn.dialect.write (conn.dialect.quoteId pk.name) ++
          (" = ?".toList ++ [])))) := by
    simp only [DbContext.deleteSql, DbContext.deleteTarget, write_append, write_lit,
      List.append_assoc]
    rfl
  rw [htext]
  refine takes_exactly_bind ?_
  refine Takes.bind (takes_name table.name (stops_append (s := " WHERE ") rfl (by decide) _)) ?_
  refine takes_exactly_bind ?_
  refine Takes.bind (takes_name pk.name (stops_append (s := " = ?") rfl (by decide) _)) ?_
  exact (takes_exactly_bind takes_end).orElse

theorem read_deleteInSql (pk : ColumnDef E) {count : ℕ} (hcount : count ≠ 0) :
    readDml conn.dialect (conn.dialect.write (DbContext.deleteInSql conn table pk count)) =
      some (.delete table.name pk.name count) := by
  refine Takes.readDml_eq (Takes.orElse_right ?_ (Takes.orElse ?_))
  · exact run_orElse_eq_none (run_bind_eq_none (run_exactly_eq_none rfl))
      (run_bind_eq_none (run_exactly_eq_none rfl))
  have htext : conn.dialect.write (DbContext.deleteInSql conn table pk count) =
      "DELETE FROM ".toList ++ (conn.dialect.write (conn.dialect.quoteId table.name) ++
        (" WHERE ".toList ++ (conn.dialect.write (conn.dialect.quoteId pk.name) ++
          (" IN (".toList ++ (conn.dialect.write (Dialect.placeholderList count) ++
            (")".toList ++ [])))))) := by
    simp only [DbContext.deleteInSql, DbContext.deleteTarget, write_append, write_lit,
      List.append_assoc, List.append_nil]
  rw [htext]
  refine takes_exactly_bind ?_
  refine Takes.bind (takes_name table.name (stops_append (s := " WHERE ") rfl (by decide) _)) ?_
  refine takes_exactly_bind ?_
  refine Takes.bind (takes_name pk.name (stops_append (s := " IN (") rfl (by decide) _)) ?_
  refine Takes.orElse_right (run_bind_eq_none (run_exactly_eq_none rfl)) ?_
  refine takes_exactly_bind ?_
  refine Takes.bind (takes_markers hcount (stops_append (s := ")") rfl (by decide) _) rfl) ?_
  refine takes_exactly_bind ?_
  rw [List.length_map, List.length_range]
  exact takes_end

end Statements

end Names

end CppLinq
