import CppLinq.StatementTrees

/-!
# What an upsert does

Three families of statements write an upsert : `INSERT … ON CONFLICT`, `INSERT … ON
DUPLICATE KEY UPDATE` and `MERGE`. All have the same clauses (`UpsertStatement`), and differ
in how they are written (`UpsertStatement.write`) and in what a dialect puts into them
(`Dialect.upsertStatement`). What they do to a table whose rows differ in the conflict
columns is one and the same function (`KeyedTable.upsert`, `upsert_denotes`).
-/

namespace CppLinq

/-! ## Tables with a unique key -/

/-- A row of a table : the value of each of its columns. -/
abbrev NamedRow := String → BoundValue

/-- Equal values in the columns of a key, none of them `NULL`. -/
def SameKey (key : List String) (r r' : NamedRow) : Prop :=
  ∀ c ∈ key, r c ≠ .null ∧ r' c = r c

instance (key : List String) (r r' : NamedRow) : Decidable (SameKey key r r') :=
  inferInstanceAs (Decidable (∀ c ∈ key, _))

theorem SameKey.symm {key : List String} {r r' : NamedRow} (h : SameKey key r r') :
    SameKey key r' r :=
  fun c hc => ⟨(h c hc).2 ▸ (h c hc).1, (h c hc).2.symm⟩

/-- Rows that `key` tells apart. -/
structure KeyedTable (key : List String) where
  rows : List NamedRow
  unique : rows.Pairwise fun r r' => ¬ SameKey key r r'

/-- The row with the columns `upd` of `new`. -/
def NamedRow.update (r : NamedRow) (upd : List String) (new : NamedRow) : NamedRow :=
  fun c => if c ∈ upd then new c else r c

/-- The rows after an upsert : where a row has the key of the new one, its columns `upd` are
updated, and otherwise the new one is inserted. -/
def upsertRows (key upd : List String) (new : NamedRow) (rows : List NamedRow) :
    List NamedRow :=
  if ∃ r ∈ rows, SameKey key new r then
    rows.map fun r => if SameKey key new r then r.update upd new else r
  else rows ++ [new]

section Keyed

variable {key upd : List String} {new r r' : NamedRow}

/-- An update keeps the key. -/
theorem update_key (h : SameKey key new r) {c : String} (hc : c ∈ key) :
    r.update upd new c = r c := by
  rw [NamedRow.update]
  split
  · exact (h c hc).2.symm
  · rfl

theorem matched_key {c : String} (hc : c ∈ key) :
    (if SameKey key new r then r.update upd new else r) c = r c := by
  split
  · rename_i h
    exact update_key h hc
  · rfl

/-- An upsert leaves no two rows with one key. -/
theorem pairwise_upsertRows {rows : List NamedRow}
    (h : rows.Pairwise fun r r' => ¬ SameKey key r r') :
    (upsertRows key upd new rows).Pairwise fun r r' => ¬ SameKey key r r' := by
  unfold upsertRows
  split
  · refine h.map _ fun r r' hne hsame => hne fun c hc => ?_
    have hkey := hsame c hc
    rwa [matched_key hc, matched_key hc] at hkey
  · rename_i hnone
    refine List.pairwise_append.mpr ⟨h, List.pairwise_singleton _ _, fun r hr r' hr' => ?_⟩
    rw [List.mem_singleton.mp hr']
    exact fun hsame => hnone ⟨r, hr, hsame.symm⟩

/-- The table after an upsert. -/
def KeyedTable.upsert (t : KeyedTable key) (upd : List String) (new : NamedRow) :
    KeyedTable key :=
  ⟨upsertRows key upd new t.rows, pairwise_upsertRows t.unique⟩

end Keyed

/-! ## Statements -/

/-- A marker in the statement, in a cast to a type or alone. -/
structure UpsertParam where
  hole : ℕ
  type : Option String

/-- What a matched row gets in a column : the new value of a column, or the one it has. -/
inductive SetValue
  | new (column : String)
  | old (column : String)

/-- An upsert, whatever it is written like. -/
structure UpsertStatement where
  tableName : String
  /-- The columns of the new row, with their values. -/
  inserted : List (String × UpsertParam)
  /-- The columns matched on, if the statement names them. -/
  matchedOn : Option (List String)
  /-- What is set in a row that matches. -/
  sets : List (String × SetValue)

namespace UpsertStatement

/-- What a cast to a type makes of a value. -/
abbrev Cast := String → BoundValue → BoundValue

variable (cast : Cast) (params : List BoundValue)

/-- The value of a marker. -/
def paramValue (p : UpsertParam) : BoundValue :=
  p.type.elim (params[p.hole]?.getD .null) fun type => cast type (params[p.hole]?.getD .null)

/-- The row to be inserted. Columns without a value get their default. -/
def newRow (defaults : NamedRow) (s : UpsertStatement) : NamedRow :=
  fun c => (s.inserted.lookup c).elim (defaults c) (paramValue cast params)

/-- The value that an assignment gives, from the new row and the old one. -/
def setValue (new old : NamedRow) : SetValue → BoundValue
  | .new c => new c
  | .old c => old c

/-- A row with what is set in it. -/
def setRow (s : UpsertStatement) (new old : NamedRow) : NamedRow :=
  fun c => (s.sets.lookup c).elim (old c) (setValue new old)

/-- The rows after the statement, on a table with the key `unique`. A row matches if it has
the values of the new one in the columns matched on, which are those of the key if the
statement names none. -/
def exec (unique : List String) (defaults : NamedRow) (s : UpsertStatement)
    (rows : List NamedRow) : List NamedRow :=
  let new := s.newRow cast params defaults
  let key := s.matchedOn.getD unique
  if ∃ r ∈ rows, SameKey key new r then
    rows.map fun r => if SameKey key new r then s.setRow new r else r
  else rows ++ [new]

end UpsertStatement

/-! ## How they are written -/

/-- A marker, in its cast. -/
def UpsertParam.text (p : UpsertParam) : Text :=
  match p.type with
  | none => placeholder p.hole
  | some type => lit "CAST(" ++ placeholder p.hole ++ lit (" AS " ++ type ++ ")")

/-- How a dialect names the row to be inserted, and the row that matches. -/
def Dialect.newName (d : Dialect) (column : String) : Text :=
  match d with
  | .sqlite | .postgres => lit "EXCLUDED." ++ d.quoteId column
  | .mysql => lit "VALUES(" ++ d.quoteId column ++ lit ")"
  | .mssql => lit "[source]." ++ d.quoteId column
  | .informix | .oracle => lit "source." ++ d.quoteId column

/-- How a dialect names a column of the row that is there. -/
def Dialect.oldName (d : Dialect) (column : String) : Text :=
  match d with
  | .sqlite | .postgres | .mysql => d.quoteId column
  | .mssql => lit "[target]." ++ d.quoteId column
  | .informix | .oracle => lit "target." ++ d.quoteId column

/-- How a dialect writes an assigned value. -/
def SetValue.text (d : Dialect) : SetValue → Text
  | .new c => d.newName c
  | .old c => d.oldName c

namespace UpsertStatement

variable (d : Dialect) (s : UpsertStatement)

/-- The columns of the new row. -/
def columns : List String :=
  s.inserted.map Prod.fst

/-- The assignments of an upsert. -/
def setList : Text :=
  commaList (s.sets.map fun (c, v) => d.oldName c ++ lit " = " ++ v.text d)

/-- `INSERT INTO table (columns) VALUES (markers)`. -/
def insertText : Text :=
  lit "INSERT INTO " ++ d.quoteId s.tableName ++ lit " (" ++ d.columnList s.columns ++
    lit ") VALUES (" ++ commaList (s.inserted.map fun p => p.2.text) ++ lit ")"

/-- The rows that a `MERGE` merges : one row, with names for its columns. -/
def sourceText : Text :=
  match d with
  | .mssql => lit " WITH (HOLDLOCK) AS [target] USING (VALUES (" ++
      commaList (s.inserted.map fun p => p.2.text) ++ lit ")) AS [source] (" ++
      d.columnList s.columns ++ lit ")"
  | .informix => lit " AS target USING (SELECT " ++
      commaList (s.inserted.map fun p => p.2.text ++ lit " AS " ++ d.quoteId p.1) ++
      lit " FROM \"informix\".systables WHERE tabid = 1) AS source"
  | _ => lit " target USING (SELECT " ++
      commaList (s.inserted.map fun p => p.2.text ++ lit " AS " ++ d.quoteId p.1) ++
      lit " FROM DUAL) source"

/-- A `MERGE`. -/
def mergeText : Text :=
  lit "MERGE INTO " ++ d.quoteId s.tableName ++ s.sourceText d ++ lit " ON (" ++
    andList ((s.matchedOn.getD []).map fun c => d.oldName c ++ lit " = " ++ d.newName c) ++
    lit ")" ++
    (if s.sets.isEmpty then [] else lit " WHEN MATCHED THEN UPDATE SET " ++ s.setList d) ++
    lit " WHEN NOT MATCHED THEN INSERT (" ++ d.columnList s.columns ++ lit ") VALUES (" ++
    commaList (s.columns.map d.newName) ++ lit ")"

/-- The text of an upsert. -/
def write : Text :=
  match d with
  | .sqlite | .postgres =>
    s.insertText d ++ lit " ON CONFLICT (" ++ d.columnList (s.matchedOn.getD []) ++
      if s.sets.isEmpty then lit ") DO NOTHING" else lit ") DO UPDATE SET " ++ s.setList d
  | .mysql => s.insertText d ++ lit " ON DUPLICATE KEY UPDATE " ++ s.setList d
  | .mssql => s.mergeText d ++ lit ";"
  | .informix | .oracle => s.mergeText d

end UpsertStatement

/-- The cast that a dialect puts around a value. -/
def Dialect.upsertCast : Dialect → BoundValue → Option String
  | .informix, v => some (informixCastType v)
  | _, _ => none

/-- The statement of a dialect. Oracle sets no column that is matched on, and MySQL has to
set something, so it sets a column to itself. -/
def Dialect.upsertStatement (d : Dialect) (tableName : String) (ins : List String)
    (values : List BoundValue) (conflict upd : List String) : UpsertStatement where
  tableName := tableName
  inserted := ins.mapIdx fun i c => (c, ⟨i, d.upsertCast (values[i]?.getD .null)⟩)
  matchedOn := if d = .mysql then none else some conflict
  sets :=
    match d, upd, conflict with
    | .oracle, _, _ => (upd.filter (!conflict.contains ·)).map fun c => (c, .new c)
    | .mysql, [], c :: _ => [(c, .old c)]
    | _, _, _ => upd.map fun c => (c, .new c)

/-! ## The text is the statement -/

section Write

variable {d : Dialect} {tableName : String} {ins conflict upd : List String}
  {values : List BoundValue}

@[simp] theorem columns_upsertStatement :
    (d.upsertStatement tableName ins values conflict upd).columns = ins := by
  refine List.ext_getElem ?_ fun i hi hi' => ?_ <;>
    simp [UpsertStatement.columns, Dialect.upsertStatement]

/-- Without casts there is one marker for each column. -/
theorem markers_upsertStatement (hd : d ≠ .informix) :
    commaList ((d.upsertStatement tableName ins values conflict upd).inserted.map
      fun p => p.2.text) = Dialect.placeholderList ins.length := by
  rw [Dialect.placeholderList]
  congr 1
  refine List.ext_getElem (by simp [Dialect.upsertStatement]) fun i hi hi' => ?_
  have hcast : ∀ v, d.upsertCast v = none := by
    intro v
    cases d with
    | informix => contradiction
    | _ => rfl
  simp [Dialect.upsertStatement, UpsertParam.text, hcast]

/-- What is set to the new values. -/
theorem setList_new {s : UpsertStatement} (cols : List String)
    (h : s.sets = cols.map fun c => (c, .new c)) :
    s.setList d = commaList (cols.map fun c => d.oldName c ++ lit " = " ++ d.newName c) := by
  rw [UpsertStatement.setList, h, List.map_map]
  rfl

/-- The upserts are written as their statements, one lemma for each form. -/
theorem write_insert (h : d = .sqlite ∨ d = .postgres) :
    d.baseUpsert tableName ins conflict upd =
      (d.upsertStatement tableName ins values conflict upd).write d := by
  have hne : d ≠ .informix := by rcases h with rfl | rfl <;> decide
  have hsets : (d.upsertStatement tableName ins values conflict upd).sets =
      upd.map fun c => (c, .new c) := by rcases h with rfl | rfl <;> rfl
  have hwrite : (d.upsertStatement tableName ins values conflict upd).write d =
      (d.upsertStatement tableName ins values conflict upd).insertText d ++
        lit " ON CONFLICT (" ++ d.columnList conflict ++
        if (d.upsertStatement tableName ins values conflict upd).sets.isEmpty then
          lit ") DO NOTHING"
        else lit ") DO UPDATE SET " ++
          (d.upsertStatement tableName ins values conflict upd).setList d := by
    rcases h with rfl | rfl <;> rfl
  have hnames : ∀ c, d.oldName c ++ lit " = " ++ d.newName c =
      d.quoteId c ++ lit " = EXCLUDED." ++ d.quoteId c := by
    intro c
    have hlit : lit " = EXCLUDED." = lit " = " ++ lit "EXCLUDED." := rfl
    rcases h with rfl | rfl <;> simp [Dialect.oldName, Dialect.newName, hlit]
  have hlit : lit ") ON CONFLICT (" = lit ")" ++ lit " ON CONFLICT (" := rfl
  rw [hwrite, setList_new _ hsets, hsets, UpsertStatement.insertText, markers_upsertStatement hne,
    columns_upsertStatement, Dialect.baseUpsert, hlit]
  simp only [hnames, List.isEmpty_map, List.append_assoc]
  rfl

theorem write_mysql (hins : ins ≠ []) (hconflict : conflict ≠ []) :
    Dialect.mysqlUpsert tableName ins conflict upd =
      .ok ((Dialect.upsertStatement .mysql tableName ins values conflict upd).write .mysql) := by
  obtain ⟨first, ins', rfl⟩ := List.exists_cons_of_ne_nil hins
  obtain ⟨c, conflict', rfl⟩ := List.exists_cons_of_ne_nil hconflict
  have hlit : lit ") ON DUPLICATE KEY UPDATE " = lit ")" ++ lit " ON DUPLICATE KEY UPDATE " := rfl
  rw [UpsertStatement.write, UpsertStatement.insertText, markers_upsertStatement (by decide),
    columns_upsertStatement]
  simp only [Dialect.mysqlUpsert, hlit]
  cases upd with
  | nil =>
    simp [Dialect.upsertStatement, UpsertStatement.setList, commaList, joinSep, SetValue.text,
      Dialect.oldName]
  | cons u upd =>
    have hsets : (Dialect.upsertStatement .mysql tableName (first :: ins') values
        (c :: conflict') (u :: upd)).sets = (u :: upd).map fun c => (c, .new c) := rfl
    rw [setList_new _ hsets]
    have hnames : ∀ c, Dialect.oldName .mysql c ++ lit " = " ++ Dialect.newName .mysql c =
        Dialect.quoteId .mysql c ++ lit " = VALUES(" ++ Dialect.quoteId .mysql c ++ lit ")" := by
      intro c
      have hlit : lit " = VALUES(" = lit " = " ++ lit "VALUES(" := rfl
      simp [Dialect.oldName, Dialect.newName, hlit]
    simp only [hnames, List.append_assoc]
    rfl

/-- The tail of a `MERGE`, with the names of the dialect for the two rows. -/
theorem mergeText_eq {s : UpsertStatement} (target source : String) (matched cols : List String)
    (hold : ∀ c, d.oldName c = lit (target ++ ".") ++ d.quoteId c)
    (hnew : ∀ c, d.newName c = lit (source ++ ".") ++ d.quoteId c)
    (hmatched : s.matchedOn = some matched) (hsets : s.sets = cols.map fun c => (c, .new c)) :
    s.mergeText d = lit "MERGE INTO " ++ d.quoteId s.tableName ++ s.sourceText d ++ lit " ON (" ++
      d.mergeTail target source s.columns matched cols := by
  have hnames : d.targetIsSource target source =
      fun c => d.oldName c ++ lit " = " ++ d.newName c := by
    funext c
    have hlit : lit (" = " ++ source ++ ".") = lit " = " ++ lit (source ++ ".") := by
      simp [lit]
    rw [Dialect.targetIsSource, hold, hnew, hlit]
    simp only [List.append_assoc]
  rw [UpsertStatement.mergeText, setList_new _ hsets, hsets, hmatched, Dialect.mergeTail]
  simp only [Option.getD_some, List.isEmpty_map, hnames, ← hnew, List.append_assoc]

theorem write_mssql (hins : ins ≠ []) (hconflict : conflict ≠ []) :
    Dialect.mssqlUpsert tableName ins conflict upd =
      .ok ((Dialect.upsertStatement .mssql tableName ins values conflict upd).write .mssql) := by
  have hlit : lit ") ON (" = lit ")" ++ lit " ON (" := rfl
  rw [UpsertStatement.write, mergeText_eq "[target]" "[source]" conflict upd
    (fun _ => rfl) (fun _ => rfl) rfl rfl, UpsertStatement.sourceText]
  simp only [markers_upsertStatement (show Dialect.mssql ≠ .informix by decide),
    columns_upsertStatement]
  rw [Dialect.mssqlUpsert, if_neg (by simpa using hins), if_neg (by simpa using hconflict), hlit]
  simp only [List.append_assoc]
  rfl

theorem write_oracle (hins : ins ≠ []) (hconflict : conflict ≠ []) :
    Dialect.oracleUpsert tableName ins conflict upd =
      (Dialect.upsertStatement .oracle tableName ins values conflict upd).write .oracle := by
  have hlit : lit " FROM DUAL) source ON (" = lit " FROM DUAL) source" ++ lit " ON (" := rfl
  have hsource : (Dialect.upsertStatement .oracle tableName ins values conflict
      upd).inserted.map (fun p => p.2.text ++ lit " AS " ++ Dialect.quoteId .oracle p.1) =
      ins.mapIdx fun i c => placeholder i ++ lit " AS " ++ Dialect.quoteId .oracle c := by
    refine List.ext_getElem (by simp [Dialect.upsertStatement]) fun i hi hi' => ?_
    simp [Dialect.upsertStatement, Dialect.upsertCast, UpsertParam.text]
  have hsourceText : (Dialect.upsertStatement .oracle tableName ins values conflict
      upd).sourceText .oracle = lit " target USING (SELECT " ++ commaList (ins.mapIdx fun i c =>
        placeholder i ++ lit " AS " ++ Dialect.quoteId .oracle c) ++
        lit " FROM DUAL) source" := by
    rw [← hsource]
    rfl
  rw [UpsertStatement.write, mergeText_eq "target" "source" conflict
    (upd.filter (!conflict.contains ·)) (fun _ => rfl) (fun _ => rfl) rfl rfl, hsourceText,
    columns_upsertStatement]
  rw [Dialect.oracleUpsert, if_neg (by simp [hins, hconflict]), hlit]
  simp only [List.append_assoc]
  rfl

theorem write_informix :
    Dialect.informixUpsert tableName ins values conflict upd =
      (Dialect.upsertStatement .informix tableName ins values conflict upd).write .informix := by
  have hlit : lit " FROM \"informix\".systables WHERE tabid = 1) AS source ON (" =
      lit " FROM \"informix\".systables WHERE tabid = 1) AS source" ++ lit " ON (" := rfl
  have htype : ∀ i : ℕ, (values[i]?.map Dialect.informixCastType).getD "VARCHAR(255)" =
      Dialect.informixCastType (values[i]?.getD .null) := by
    intro i
    cases values[i]? <;> rfl
  have hsource : (Dialect.upsertStatement .informix tableName ins values conflict
      upd).inserted.map (fun p => p.2.text ++ lit " AS " ++ Dialect.quoteId .informix p.1) =
      ins.mapIdx fun i c => lit "CAST(" ++ placeholder i ++
        lit (" AS " ++ (values[i]?.map Dialect.informixCastType).getD "VARCHAR(255)" ++
          ") AS ") ++ Dialect.quoteId .informix c := by
    refine List.ext_getElem (by simp [Dialect.upsertStatement]) fun i hi hi' => ?_
    have hcast : ∀ t : String, lit (" AS " ++ t ++ ") AS ") =
        lit (" AS " ++ t ++ ")") ++ lit " AS " := by
      intro t
      have hclose : lit ") AS " = lit ")" ++ lit " AS " := rfl
      simp only [lit, String.toList_append, List.map_append, List.append_assoc] at hclose ⊢
      rw [hclose]
    simp [Dialect.upsertStatement, Dialect.upsertCast, UpsertParam.text, htype, hcast]
  rw [UpsertStatement.write, mergeText_eq "target" "source" conflict upd (fun _ => rfl)
    (fun _ => rfl) rfl (by cases upd <;> rfl), UpsertStatement.sourceText]
  simp only [hsource, columns_upsertStatement]
  rw [Dialect.informixUpsert, hlit]
  simp only [List.append_assoc]
  rfl

/-- The text of an upsert is its statement. -/
theorem generateUpsert_eq_write (d : Dialect) (tableName : String) (values : List BoundValue)
    (upd : List String) (hins : ins ≠ []) (hconflict : conflict ≠ []) :
    d.generateUpsert tableName ins values conflict upd =
      .ok ((d.upsertStatement tableName ins values conflict upd).write d) := by
  cases d with
  | sqlite => exact congrArg Except.ok (write_insert (Or.inl rfl))
  | postgres => exact congrArg Except.ok (write_insert (Or.inr rfl))
  | mssql => exact write_mssql hins hconflict
  | mysql => exact write_mysql hins hconflict
  | informix => exact congrArg Except.ok write_informix
  | oracle => exact congrArg Except.ok (write_oracle hins hconflict)

end Write

/-! ## What the statement does -/

section Effect

open UpsertStatement

variable {d : Dialect} {tableName : String} {ins conflict upd : List String}
  {values : List BoundValue} {cast : Cast} {defaults : NamedRow}

/-- The values of a new row, by column. -/
def insertedRow (ins : List String) (values : List BoundValue) (defaults : NamedRow) :
    NamedRow :=
  fun c => ((ins.zip values).lookup c).getD (defaults c)

/-- The columns of the new row get the values of the markers, in order. -/
theorem newRow_upsertStatement (hlength : values.length = ins.length)
    (hcast : ∀ v ∈ values, cast (Dialect.informixCastType v) v = v) :
    (d.upsertStatement tableName ins values conflict upd).newRow cast values defaults =
      insertedRow ins values defaults := by
  have hvalue : ∀ i (hi : i < values.length),
      paramValue cast values ⟨i, d.upsertCast (values[i]?.getD .null)⟩ = values[i] := by
    intro i hi
    have hget : values[i]?.getD .null = values[i] := by
      rw [List.getElem?_eq_getElem hi, Option.getD_some]
    rw [paramValue, hget]
    cases d with
    | informix => exact hcast _ (List.getElem_mem hi)
    | _ => rfl
  have hmap : (d.upsertStatement tableName ins values conflict upd).inserted.map
      (fun p => (p.1, paramValue cast values p.2)) = ins.zip values := by
    refine List.ext_getElem (by simp [Dialect.upsertStatement, hlength]) fun i hi hi' => ?_
    have hi : i < values.length := by simp at hi'; omega
    simp [Dialect.upsertStatement, hvalue i hi]
  have hlookup : ∀ (l : List (String × UpsertParam)) (c : String),
      (l.map fun p => (p.1, paramValue cast values p.2)).lookup c =
        (l.lookup c).map (paramValue cast values) := by
    intro l c
    induction l with
    | nil => rfl
    | cons p l ih =>
      rw [List.map_cons, List.lookup_cons, List.lookup_cons, ih]
      split <;> rfl
  funext c
  rw [newRow, insertedRow, ← hmap, hlookup]
  cases (d.upsertStatement tableName ins values conflict upd).inserted.lookup c <;> rfl

theorem lookup_new (cols : List String) (c : String) :
    (cols.map fun c => (c, SetValue.new c)).lookup c =
      if c ∈ cols then some (.new c) else none := by
  induction cols with
  | nil => rfl
  | cons c' cols ih =>
    rw [List.map_cons, List.lookup_cons, ih]
    by_cases h : c = c'
    · subst h
      simp
    · have hne : (c == c') = false := beq_false_of_ne h
      simp [hne, h]

/-- Columns that are set to their new values. -/
theorem setRow_new {s : UpsertStatement} {cols : List String}
    (h : s.sets = cols.map fun c => (c, .new c)) (new r : NamedRow) :
    s.setRow new r = r.update cols new := by
  funext c
  rw [setRow, h, lookup_new, NamedRow.update]
  split <;> rfl

/-- A matched row has the new value in the columns of the key, whether they are set or not. -/
theorem update_filter {new r : NamedRow} (h : SameKey conflict new r) :
    r.update (upd.filter (!conflict.contains ·)) new = r.update upd new := by
  funext c
  rw [NamedRow.update, NamedRow.update]
  by_cases hc : c ∈ conflict
  · have hnot : c ∉ upd.filter (!conflict.contains ·) := by simp [hc]
    rw [if_neg hnot, (h c hc).2, ite_self]
  · have hiff : c ∈ upd.filter (!conflict.contains ·) ↔ c ∈ upd := by simp [hc]
    simp only [hiff]

/-- All that a matched row gets are the new values of the columns to update. -/
theorem setRow_upsertStatement (hconflict : conflict ≠ []) {new r : NamedRow}
    (h : SameKey conflict new r) :
    (d.upsertStatement tableName ins values conflict upd).setRow new r = r.update upd new := by
  obtain ⟨c, conflict', rfl⟩ := List.exists_cons_of_ne_nil hconflict
  cases d with
  | oracle => exact (setRow_new rfl new r).trans (update_filter h)
  | mysql =>
    cases upd with
    | nil =>
      -- the column that is set to itself
      funext b
      have hsets : (Dialect.upsertStatement .mysql tableName ins values (c :: conflict')
          []).sets = [(c, .old c)] := rfl
      rw [setRow, hsets, NamedRow.update, if_neg (List.not_mem_nil), List.lookup_cons]
      split
      · rename_i hb
        rw [beq_iff_eq.mp hb]
        rfl
      · rfl
    | cons u upd => exact setRow_new rfl new r
  | sqlite | postgres | mssql | informix => exact setRow_new (by cases upd <;> rfl) new r

theorem matchedOn_upsertStatement :
    (d.upsertStatement tableName ins values conflict upd).matchedOn.getD conflict = conflict := by
  cases d <;> rfl

/-- The statement upserts the row of its values. -/
theorem exec_upsertStatement (hconflict : conflict ≠ []) (hlength : values.length = ins.length)
    (hcast : ∀ v ∈ values, cast (Dialect.informixCastType v) v = v) (rows : List NamedRow) :
    (d.upsertStatement tableName ins values conflict upd).exec cast values conflict defaults
      rows = upsertRows conflict upd (insertedRow ins values defaults) rows := by
  have hset : (rows.map fun r => if SameKey conflict (insertedRow ins values defaults) r then
      (d.upsertStatement tableName ins values conflict upd).setRow
        (insertedRow ins values defaults) r else r) =
      rows.map fun r => if SameKey conflict (insertedRow ins values defaults) r then
        r.update upd (insertedRow ins values defaults) else r := by
    refine List.map_congr_left fun r _ => ?_
    split
    · rename_i h
      exact setRow_upsertStatement hconflict h
    · rfl
  rw [exec, newRow_upsertStatement hlength hcast, matchedOn_upsertStatement]
  simp only [hset]
  rfl

end Effect

/-- On every dialect the text of an upsert has one marker for each column, in their order,
and is a statement that does the same to a table with the conflict columns as its key : it
updates the row with the key of the new one, or inserts the new one. -/
theorem upsert_denotes (d : Dialect) (tableName : String) {ins conflict : List String}
    (upd : List String) {values : List BoundValue} (cast : UpsertStatement.Cast)
    (defaults : NamedRow) (hins : ins ≠ []) (hconflict : conflict ≠ [])
    (hlength : values.length = ins.length)
    (hcast : ∀ v ∈ values, cast (Dialect.informixCastType v) v = v) :
    ∃ (sql : Text) (s : UpsertStatement),
      d.generateUpsert tableName ins values conflict upd = .ok sql ∧
      holes sql = List.range ins.length ∧
      sql = s.write d ∧ s.inserted.map (fun p => (p.1, p.2.hole)) = ins.zipIdx ∧
      ∀ t : KeyedTable conflict, s.exec cast values conflict defaults t.rows =
        (t.upsert upd (insertedRow ins values defaults)).rows := by
  have hwrite := generateUpsert_eq_write d tableName values upd hins hconflict
  refine ⟨_, d.upsertStatement tableName ins values conflict upd, hwrite, ?_, rfl, ?_,
    fun t => exec_upsertStatement hconflict hlength hcast t.rows⟩
  · have hplaceholders : d.upsertPlaceholders ins conflict = ins.length := by
      cases d <;> simp [Dialect.upsertPlaceholders, hins, hconflict]
    rw [holes_generateUpsert hwrite, hplaceholders]
  · refine List.ext_getElem (by simp [Dialect.upsertStatement]) fun i hi hi' => ?_
    simp [Dialect.upsertStatement]

/-- An upsert of a price on Oracle. -/
theorem upsert_denotes_price : ∃ (sql : Text) (s : UpsertStatement),
    Dialect.generateUpsert .oracle "prices" ["item", "price"] [.int64 1, .int64 20] ["item"]
      ["item", "price"] = .ok sql ∧
    holes sql = List.range 2 ∧
    sql = s.write .oracle ∧
    s.inserted.map (fun p => (p.1, p.2.hole)) = ["item", "price"].zipIdx ∧
    ∀ t : KeyedTable ["item"], s.exec (fun _ v => v) [.int64 1, .int64 20] ["item"]
        (fun _ => .null) t.rows =
      (t.upsert ["item", "price"]
        (insertedRow ["item", "price"] [.int64 1, .int64 20] fun _ => .null)).rows :=
  upsert_denotes .oracle "prices" ["item", "price"] (fun _ v => v) (fun _ => .null)
    (List.cons_ne_nil _ _) (List.cons_ne_nil _ _) rfl fun _ _ => rfl

end CppLinq
