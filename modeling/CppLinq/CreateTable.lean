import CppLinq.DefinitionTokens
import CppLinq.EntityMapping
import CppLinq.SqlGenerator
import CppLinq.SqlPieces

/-!
# Tables and their primary keys

`SqlGenerator::generate_create_table` (`sql_generator.cpp`) and what the dialects write in it.
`primaryKeys` reads the definitions of a primary key back from the characters of a
`CREATE TABLE` : one for each `PRIMARY KEY` in the definition of a column, and one for a clause
of the table. The text of `generate_create_table` defines each auto-increment column as a
key, and the flagged columns together where no column is auto-increment
(`primaryKeys_generateCreateTable`).
-/

namespace CppLinq

/-! ## The generator -/

/-- `ColumnInfo`. -/
structure ColumnInfo where
  name : String
  sqlType : SqlType := .text
  isPrimaryKey : Bool := false
  isAutoIncrement : Bool := false
  isNotNull : Bool := false
  isNullable : Bool := false
  isUnique : Bool := false
  deriving DecidableEq, Repr

namespace Dialect

/-- `type_name`. -/
def typeName : Dialect → SqlType → String
  | .sqlite, t => t.sqliteName
  | .postgres, t => match t with
    | .integer => "INTEGER"
    | .bigInt => "BIGINT"
    | .unsignedBigInt => "NUMERIC(20, 0)"
    | .real => "DOUBLE PRECISION"
    | .decimal => "NUMERIC"
    | .text | .wstring => "TEXT"
    | .blob => "BYTEA"
    | .boolean => "BOOLEAN"
    | .date => "DATE"
    | .time => "TIME"
    | .timestamp => "TIMESTAMP"
    | .interval => "INTERVAL"
    | .guid => "UUID"
  | .mssql, t => match t with
    | .integer => "INT"
    | .bigInt => "BIGINT"
    | .unsignedBigInt => "NUMERIC(20, 0)"
    | .real => "FLOAT"
    | .decimal => "DECIMAL(28, 10)"
    | .text | .wstring => "NVARCHAR(255)"
    | .blob => "VARBINARY(MAX)"
    | .boolean => "BIT"
    | .date => "DATE"
    | .time => "TIME"
    | .timestamp => "DATETIME2"
    | .interval => "VARCHAR(100)"
    | .guid => "UNIQUEIDENTIFIER"
  | .mysql, t => match t with
    | .integer => "INT"
    | .bigInt => "BIGINT"
    | .unsignedBigInt => "BIGINT UNSIGNED"
    | .real => "DOUBLE"
    | .decimal => "DECIMAL(28, 10)"
    | .text => "VARCHAR(255)"
    | .wstring => "VARCHAR(255) CHARACTER SET utf8mb4"
    | .blob => "LONGBLOB"
    | .boolean => "TINYINT(1)"
    | .date => "DATE"
    | .time => "TIME"
    | .timestamp => "DATETIME"
    | .interval => "VARCHAR(100)"
    | .guid => "VARCHAR(36)"
  | .informix, t => match t with
    | .integer => "INTEGER"
    | .bigInt => "BIGINT"
    | .unsignedBigInt => "DECIMAL(20, 0)"
    | .real => "FLOAT"
    | .decimal => "DECIMAL(28, 10)"
    | .text => "VARCHAR(255)"
    | .wstring => "NVARCHAR(255)"
    | .blob => "BLOB"
    | .boolean => "BOOLEAN"
    | .date => "DATE"
    | .time => "DATETIME HOUR TO SECOND"
    | .timestamp => "DATETIME YEAR TO FRACTION(3)"
    | .interval => "VARCHAR(100)"
    | .guid => "VARCHAR(36)"
  | .oracle, t => match t with
    | .integer => "NUMBER(10)"
    | .bigInt => "NUMBER(19)"
    | .unsignedBigInt => "NUMBER(20, 0)"
    | .real => "DOUBLE PRECISION"
    | .decimal => "NUMBER(28, 10)"
    | .text => "VARCHAR2(255)"
    | .wstring => "NVARCHAR2(255)"
    | .blob => "BLOB"
    | .boolean => "NUMBER(1)"
    | .date => "DATE"
    | .time => "VARCHAR2(20)"
    | .timestamp => "TIMESTAMP"
    | .interval => "VARCHAR2(100)"
    | .guid => "VARCHAR2(36)"

/-- `auto_increment_type`. -/
def autoIncrementType : Dialect → String
  | .sqlite => "INTEGER PRIMARY KEY AUTOINCREMENT"
  | .postgres => "BIGSERIAL PRIMARY KEY"
  | .mssql => "INT IDENTITY(1,1) PRIMARY KEY"
  | .mysql => "INT AUTO_INCREMENT PRIMARY KEY"
  | .informix => "SERIAL PRIMARY KEY"
  | .oracle => "NUMBER GENERATED BY DEFAULT ON NULL AS IDENTITY PRIMARY KEY"

/-- SQL Server looks the table up by a string, where a quote is doubled. -/
def createTablePrefix : Dialect → String → Text
  | .mssql, tableName =>
    lit "IF OBJECT_ID(N" ++ quoteWith '\'' '\'' tableName ++ lit ", N'U') IS NULL CREATE TABLE " ++
      quoteId .mssql tableName
  | d, tableName => lit "CREATE TABLE IF NOT EXISTS " ++ d.quoteId tableName

end Dialect

/-- The text `s`, if `b`. -/
def litIf (b : Bool) (s : String) : Text :=
  if b then lit s else []

/-- The definition of one column, in a table with `pkCount` flagged columns. -/
def columnDefinition (d : Dialect) (pkCount : ℕ) (hasAutoInc : Bool) (col : ColumnInfo) : Text :=
  if col.isAutoIncrement then
    d.quoteId col.name ++ lit " " ++ lit d.autoIncrementType ++ litIf col.isUnique " UNIQUE"
  else
    d.quoteId col.name ++ lit " " ++ lit (d.typeName col.sqlType) ++
      litIf (col.isPrimaryKey && pkCount == 1 && !hasAutoInc) " PRIMARY KEY" ++
      litIf col.isNotNull " NOT NULL" ++ litIf col.isUnique " UNIQUE"

/-- The number of key columns. -/
def pkCount (columnInfos : List ColumnInfo) : ℕ :=
  columnInfos.countP fun col => col.isPrimaryKey

/-- There is a column that the database numbers. -/
def hasAutoInc (columnInfos : List ColumnInfo) : Bool :=
  columnInfos.any fun col => col.isAutoIncrement

/-- `PRIMARY KEY` with the flagged columns. -/
def primaryKeyClause (d : Dialect) (columnInfos : List ColumnInfo) : Text :=
  lit "PRIMARY KEY (" ++
    commaList ((columnInfos.filter fun col => col.isPrimaryKey).map
      fun col => d.quoteId col.name) ++
    lit ")"

/-- `generate_create_table`. -/
def generateCreateTable (d : Dialect) (tableName : String) (columnInfos : List ColumnInfo) :
    GeneratedSql :=
  .of do
    return d.createTablePrefix tableName ++ lit " (" ++
      commaList (columnInfos.map
        (columnDefinition d (pkCount columnInfos) (hasAutoInc columnInfos))) ++
      (if pkCount columnInfos > 1 && !hasAutoInc columnInfos then
        lit ", " ++ primaryKeyClause d columnInfos else []) ++ lit ")"

/-- Two flagged columns of SQL Server. -/
example : String.ofList (Dialect.write .mssql (generateCreateTable .mssql "it's"
    [⟨"a", .integer, true, false, true, false, false⟩,
      ⟨"b", .text, true, false, false, true, true⟩]).sql) =
    "IF OBJECT_ID(N'it''s', N'U') IS NULL CREATE TABLE [it's] ([a] INT NOT NULL, " ++
      "[b] NVARCHAR(255) UNIQUE, PRIMARY KEY ([a], [b]))" := by
  decide +kernel

/-! ## The table of an entity -/

section Entities

variable {M : Type} {types : M → FieldType}

/-- `make_column_info`. -/
def EntityColumn.makeColumnInfo (col : EntityColumn types) : ColumnInfo where
  name := col.name
  sqlType := (types col.member).sqlType
  isPrimaryKey := col.isPrimaryKey
  isAutoIncrement := col.isAutoIncrement
  isNotNull := col.isNotNull
  isNullable := (types col.member).isNullable
  isUnique := col.isUnique

/-- `DbContext::ensure_table`. -/
def EntityTable.ensureTable (d : Dialect) (table : EntityTable types) : GeneratedSql :=
  generateCreateTable d table.name (table.columns.map (·.makeColumnInfo))

/-- The text that declares a column to SQLite. -/
def ColumnDeclaration.text (declaration : ColumnDeclaration) (col : EntityColumn types) : Text :=
  Dialect.quoteId .sqlite col.name ++ lit " " ++ lit declaration.type ++
    litIf declaration.isPrimaryKey " PRIMARY KEY" ++ litIf col.isAutoIncrement " AUTOINCREMENT" ++
    litIf (col.isNotNull && !col.isAutoIncrement) " NOT NULL" ++ litIf col.isUnique " UNIQUE"

theorem lit_autoIncrementType : lit (Dialect.autoIncrementType .sqlite) =
    lit "INTEGER" ++ lit " PRIMARY KEY" ++ lit " AUTOINCREMENT" := by
  rw [← lit_append, ← lit_append]
  rfl

/-- The columns of a table are created as they are declared. -/
theorem sql_ensureTable (table : EntityTable types) :
    (table.ensureTable .sqlite).sql = Dialect.createTablePrefix .sqlite table.name ++ lit " (" ++
      commaList (table.columns.map fun col => (table.declaration col).text col) ++
      (if pkCount (table.columns.map (·.makeColumnInfo)) > 1 &&
          !hasAutoInc (table.columns.map (·.makeColumnInfo)) then
        lit ", " ++ primaryKeyClause .sqlite (table.columns.map (·.makeColumnInfo)) else []) ++
      lit ")" := by
  have hcount : pkCount (table.columns.map (·.makeColumnInfo)) =
      table.columns.countP (·.isPrimaryKey) := List.countP_map
  have hauto : hasAutoInc (table.columns.map (·.makeColumnInfo)) =
      table.columns.any (·.isAutoIncrement) := List.any_map
  have hcolumns : (table.columns.map (·.makeColumnInfo)).map
      (columnDefinition .sqlite (pkCount (table.columns.map (·.makeColumnInfo)))
        (hasAutoInc (table.columns.map (·.makeColumnInfo)))) =
      table.columns.map fun col => (table.declaration col).text col := by
    rw [List.map_map]
    refine List.map_congr_left fun col _ => ?_
    rw [Function.comp_apply, columnDefinition, ColumnDeclaration.text, EntityTable.declaration,
      hcount, hauto]
    cases hinserted : col.isAutoIncrement with
    | true =>
      simp [EntityColumn.makeColumnInfo, hinserted, lit_autoIncrementType, litIf]
    | false =>
      simp [EntityColumn.makeColumnInfo, hinserted, litIf, Dialect.typeName]
  rw [← hcolumns]
  rfl

end Entities

/-! ## Reading primary keys -/

/-- The name that a token is. -/
def DefToken.name? : DefToken → Option String
  | .quoted .name id => some id
  | _ => none

/-- How often `PRIMARY` stands before `KEY`. -/
def keyCount (ts : List DefToken) : ℕ :=
  (ts.zip ts.tail).count (.word "PRIMARY".toList, .word "KEY".toList)

/-- The primary keys that an element of a table defines : its column, as often as the column is
called a primary key, or the columns of a `PRIMARY KEY` clause. -/
def elementKeys : List DefToken → List (List String)
  | .quoted .name id :: ts => List.replicate (keyCount ts) [id]
  | .word w :: .word w' :: .mark '(' :: ts =>
    if w = "PRIMARY".toList ∧ w' = "KEY".toList then [ts.filterMap DefToken.name?] else []
  | _ => []

/-- The primary keys that the text of a `CREATE TABLE` defines, each by its columns. The elements
of the table stand in parentheses after its name. -/
def primaryKeys (q : Quotes) (cs : List Char) : List (List String) :=
  match (defTokens q cs).dropWhile fun t => t.name?.isNone with
  | _ :: .mark '(' :: ts => (elements 0 [] ts).flatMap elementKeys
  | _ => []

/-! ## The text and its tokens -/

/-- Only the word `PRIMARY` counts as a key. -/
theorem keyCount_cons {t : DefToken} (ht : t ≠ .word "PRIMARY".toList) (ts : List DefToken) :
    keyCount (t :: ts) = keyCount ts := by
  cases ts with
  | nil => rfl
  | cons u ts =>
    have hne : (t, u) ≠ (DefToken.word "PRIMARY".toList, DefToken.word "KEY".toList) :=
      fun h => ht (congrArg Prod.fst h)
    exact List.count_cons_of_ne hne

theorem keyCount_append {ts : List DefToken} (hts : .word "PRIMARY".toList ∉ ts)
    (us : List DefToken) : keyCount (ts ++ us) = keyCount us := by
  induction ts with
  | nil => rfl
  | cons t ts ih =>
    rw [List.mem_cons, not_or] at hts
    rw [List.cons_append, keyCount_cons (Ne.symm hts.1), ih hts.2]

section Texts

variable {d : Dialect}

/-- The name of a type is a piece of the definition of a column that makes no key. -/
theorem typeName_tokens (d : Dialect) (t : SqlType) :
    (DefMode.run d.quotes .idle (d.typeName t).toList).1.IsOutside ∧
      Balanced (defTokens d.quotes (d.typeName t).toList) ∧
      .word "PRIMARY".toList ∉ defTokens d.quotes (d.typeName t).toList := by
  cases d <;> cases t <;> decide +kernel

/-- The type of an auto-increment column makes it a key. -/
theorem autoIncrementType_tokens (d : Dialect) :
    (DefMode.run d.quotes .idle d.autoIncrementType.toList).1.IsOutside ∧
      Balanced (defTokens d.quotes d.autoIncrementType.toList) ∧
      ∀ b : Bool, keyCount (defTokens d.quotes d.autoIncrementType.toList ++
        if b then [.word "UNIQUE".toList] else []) = 1 := by
  cases d <;> decide +kernel

/-- The words, if `b`. -/
def wordsIf (b : Bool) (ws : List String) : List DefToken :=
  if b then ws.map fun w => .word w.toList else []

/-- A word that is written or not is spelled or not. -/
theorem spells_litIf {s : String} {ws : List String} (b : Bool)
    (h : Spells d.quotes s.toList (ws.map fun w => .word w.toList)) :
    Spells d.quotes (d.write (litIf b s)) (wordsIf b ws) := by
  cases b
  · exact Spells.nil
  · simpa [litIf, wordsIf] using h

/-- A blank at the head of a text ends the token before it. -/
theorem head_litIf {s : String} (b : Bool) (hs : s.toList.head? = some ' ') :
    ∀ c ∈ (d.write (litIf b s)).head?, isDelimiter c := by
  cases b
  · simp [litIf, Dialect.write]
  · simp [litIf, hs, isDelimiter]

theorem head_append {cs ds : List Char} (h : ∀ c ∈ cs.head?, isDelimiter c)
    (h' : ∀ c ∈ ds.head?, isDelimiter c) : ∀ c ∈ (cs ++ ds).head?, isDelimiter c := by
  cases cs with
  | nil => exact h'
  | cons c cs => exact h

theorem spells_unique (b : Bool) :
    Spells d.quotes (d.write (litIf b " UNIQUE")) (wordsIf b ["UNIQUE"]) :=
  spells_litIf b (by cases d <;> decide)

theorem spells_notNull (b : Bool) :
    Spells d.quotes (d.write (litIf b " NOT NULL")) (wordsIf b ["NOT", "NULL"]) :=
  spells_litIf b (by cases d <;> decide)

theorem spells_primaryKey (b : Bool) :
    Spells d.quotes (d.write (litIf b " PRIMARY KEY")) (wordsIf b ["PRIMARY", "KEY"]) :=
  spells_litIf b (by cases d <;> decide)

theorem closes_blank : Closes d.quotes " ".toList [] := by
  cases d <;> decide

theorem spells_rparen : Spells d.quotes ")".toList [.mark ')'] := by
  cases d <;> decide

theorem closes_comma : Closes d.quotes ", ".toList [.mark ','] := by
  cases d <;> decide

theorem balanced_wordsIf (b : Bool) (ws : List String) : Balanced (wordsIf b ws) := by
  cases b with
  | false => rfl
  | true =>
    induction ws with
    | nil => rfl
    | cons w ws ih =>
      have hword : Balanced [.word w.toList] := by simp [Balanced, DefToken.depth]
      exact hword.append ih

/-- What follows the name of a column. -/
def columnTypeTokens (d : Dialect) (pkCount : ℕ) (hasAutoInc : Bool) (col : ColumnInfo) :
    List DefToken :=
  if col.isAutoIncrement then
    defTokens d.quotes d.autoIncrementType.toList ++ wordsIf col.isUnique ["UNIQUE"]
  else
    defTokens d.quotes (d.typeName col.sqlType).toList ++
      (wordsIf (col.isPrimaryKey && pkCount == 1 && !hasAutoInc) ["PRIMARY", "KEY"] ++
        (wordsIf col.isNotNull ["NOT", "NULL"] ++ wordsIf col.isUnique ["UNIQUE"]))

variable (n : ℕ) (b : Bool) (col : ColumnInfo)

/-- The definition of a column is spelled as its name and the tokens of its type. -/
theorem spells_columnDefinition :
    Spells d.quotes (d.write (columnDefinition d n b col))
      (.quoted .name col.name :: columnTypeTokens d n b col) := by
  have hname : Spells d.quotes (d.write (d.quoteId col.name)) [.quoted .name col.name] := by
    rw [write_quoteId]
    exact spells_name col.name
  have hunique := spells_unique (d := d) col.isUnique
  have hheadUnique := head_litIf (d := d) col.isUnique (s := " UNIQUE") rfl
  -- the name, a blank, and a text that follows it
  have hof : ∀ (t : Text) (ts : List DefToken), Spells d.quotes (d.write t) ts →
      Spells d.quotes (d.write (d.quoteId col.name ++ (lit " " ++ t)))
        (.quoted .name col.name :: ts) := by
    intro t ts ht
    rw [write_append, write_append, write_lit]
    exact hname.append (closes_blank.append ht) (by simp [isDelimiter])
  by_cases hauto : col.isAutoIncrement
  · rw [columnDefinition, if_pos hauto, columnTypeTokens, if_pos hauto, List.append_assoc,
      List.append_assoc]
    refine hof _ _ ?_
    rw [write_append, write_lit]
    exact Spells.append ⟨(autoIncrementType_tokens d).1, rfl⟩ hunique hheadUnique
  · rw [columnDefinition, if_neg hauto, columnTypeTokens, if_neg hauto]
    simp only [List.append_assoc]
    refine hof _ _ ?_
    have hflags := (spells_notNull (d := d) col.isNotNull).append hunique hheadUnique
    rw [write_append, write_lit, write_append, write_append]
    refine Spells.append ⟨(typeName_tokens d col.sqlType).1, rfl⟩
      ((spells_primaryKey _).append hflags ?_) ?_
    · exact head_append (head_litIf _ rfl) hheadUnique
    · exact head_append (head_litIf _ rfl) (head_append (head_litIf _ rfl) hheadUnique)

theorem balanced_columnDefinition :
    Balanced (.quoted .name col.name :: columnTypeTokens d n b col) := by
  have hname : Balanced [.quoted .name col.name] := rfl
  have htype : Balanced (columnTypeTokens d n b col) := by
    unfold columnTypeTokens
    split_ifs
    · exact (autoIncrementType_tokens d).2.1.append (balanced_wordsIf _ _)
    · exact (typeName_tokens d col.sqlType).2.1.append
        ((balanced_wordsIf _ _).append ((balanced_wordsIf _ _).append (balanced_wordsIf _ _)))
  exact hname.append htype

/-- An auto-increment column is a key by its type. Another is one if it is the only flagged
column, and no column is auto-increment. -/
theorem elementKeys_columnDefinition :
    elementKeys (.quoted .name col.name :: columnTypeTokens d n b col) =
      if col.isAutoIncrement || (col.isPrimaryKey && n == 1 && !b) then [[col.name]] else [] := by
  rw [elementKeys]
  by_cases hauto : col.isAutoIncrement
  · have hcount := (autoIncrementType_tokens d).2.2 col.isUnique
    rw [columnTypeTokens, if_pos hauto]
    have hcount' : keyCount (defTokens d.quotes d.autoIncrementType.toList ++
        wordsIf col.isUnique ["UNIQUE"]) = 1 := hcount
    rw [hcount', hauto]
    rfl
  · rw [columnTypeTokens, if_neg hauto, keyCount_append (typeName_tokens d col.sqlType).2.2]
    have hflags : ∀ k nn u : Bool, keyCount (wordsIf k ["PRIMARY", "KEY"] ++
        (wordsIf nn ["NOT", "NULL"] ++ wordsIf u ["UNIQUE"])) = if k then 1 else 0 := by
      decide
    rw [hflags, Bool.eq_false_iff.mpr hauto, Bool.false_or]
    split_ifs <;> rfl

/-- The texts of a list, separated by commas, and their tokens. -/
theorem spells_commaList {ts : List Text} {ess : List (List DefToken)}
    (h : List.Forall₂ (fun t es => Spells d.quotes (d.write t) es) ts ess) :
    Spells d.quotes (d.write (commaList ts)) (List.intercalate [.mark ','] ess) := by
  induction h with
  | nil => exact Spells.nil
  | @cons t es ts ess ht hts ih =>
    cases hts with
    | nil => simpa [commaList, joinSep] using ht
    | @cons u fs ts ess hu hts =>
      have hjoin : d.write (commaList (t :: u :: ts)) =
          d.write t ++ (", ".toList ++ d.write (commaList (u :: ts))) := by
        rw [commaList, joinSep, write_append, write_append, write_lit, List.append_assoc]
        rfl
      rw [hjoin, List.intercalate_cons_cons, List.append_assoc]
      exact ht.append (closes_comma.append ih) (by simp [isDelimiter])

/-- Names, separated by commas. -/
def namesTokens (names : List String) : List DefToken :=
  List.intercalate [.mark ','] (names.map fun name => [.quoted .name name])

/-- `PRIMARY KEY` and names in parentheses. -/
def clauseTokens (names : List String) : List DefToken :=
  .word "PRIMARY".toList :: .word "KEY".toList :: .mark '(' :: (namesTokens names ++ [.mark ')'])

theorem namesTokens_cons_cons (name name' : String) (names : List String) :
    namesTokens (name :: name' :: names) =
      .quoted .name name :: .mark ',' :: namesTokens (name' :: names) := by
  simp [namesTokens, List.intercalate_cons_cons]

/-- So is the clause of the keys. -/
theorem spells_primaryKeyClause (columnInfos : List ColumnInfo) :
    Spells d.quotes (d.write (primaryKeyClause d columnInfos))
      (clauseTokens ((columnInfos.filter fun col => col.isPrimaryKey).map ColumnInfo.name)) := by
  have hopen : Closes d.quotes "PRIMARY KEY (".toList
      [.word "PRIMARY".toList, .word "KEY".toList, .mark '('] := by
    cases d <;> decide
  have hnames : ∀ cols : List ColumnInfo,
      List.Forall₂ (fun t es => Spells d.quotes (d.write t) es)
        (cols.map fun col => d.quoteId col.name)
        ((cols.map ColumnInfo.name).map fun name => [.quoted .name name]) := by
    intro cols
    induction cols with
    | nil => exact .nil
    | cons col cols ih =>
      refine .cons ?_ ih
      rw [write_quoteId]
      exact spells_name col.name
  rw [primaryKeyClause, List.append_assoc, write_append, write_append, write_lit, write_lit]
  exact hopen.append ((spells_commaList (hnames _)).append spells_rparen (by simp [isDelimiter]))

/-- The commas of the clause are inside its parentheses. -/
theorem balanced_clauseTokens (names : List String) : Balanced (clauseTokens names) := by
  have hnames : (namesTokens names).foldlM DefToken.depth 1 = some 1 := by
    induction names with
    | nil => rfl
    | cons name names ih =>
      cases names with
      | nil => rfl
      | cons name' names =>
        rw [namesTokens_cons_cons]
        exact ih
  have hclause : (clauseTokens names).foldlM DefToken.depth 0 =
      (namesTokens names ++ [DefToken.mark ')']).foldlM DefToken.depth 1 := rfl
  rw [Balanced, hclause, List.foldlM_append, hnames]
  rfl

/-- The clause makes a key of its names. -/
theorem elementKeys_clauseTokens (names : List String) :
    elementKeys (clauseTokens names) = [names] := by
  have hnames : (namesTokens names ++ [DefToken.mark ')']).filterMap DefToken.name? = names := by
    induction names with
    | nil => rfl
    | cons name names ih =>
      cases names with
      | nil => rfl
      | cons name' names =>
        rw [namesTokens_cons_cons]
        exact congrArg (name :: ·) ih
  rw [clauseTokens, elementKeys, if_pos ⟨rfl, rfl⟩, hnames]

theorem commaList_append_singleton {ts : List Text} (hts : ts ≠ []) (u : Text) :
    commaList (ts ++ [u]) = commaList ts ++ (lit ", " ++ u) := by
  induction ts with
  | nil => contradiction
  | cons t ts ih =>
    cases ts with
    | nil => simp [commaList, joinSep]
    | cons t' ts =>
      have hrest := ih (List.cons_ne_nil t' ts)
      simp only [commaList, List.cons_append, joinSep, List.append_assoc] at hrest ⊢
      rw [hrest]

/-- The elements of a table : its columns and, if there is one, the clause of the flagged
columns. -/
def tableElements (d : Dialect) (columnInfos : List ColumnInfo) : List (List DefToken) :=
  columnInfos.map (fun col => .quoted .name col.name ::
      columnTypeTokens d (pkCount columnInfos) (hasAutoInc columnInfos) col) ++
    if pkCount columnInfos > 1 && !hasAutoInc columnInfos then
      [clauseTokens ((columnInfos.filter fun col => col.isPrimaryKey).map ColumnInfo.name)]
    else []

/-- The parentheses of every element are balanced. -/
theorem balanced_tableElements (columnInfos : List ColumnInfo) :
    ∀ es ∈ tableElements d columnInfos, Balanced es := by
  intro es hes
  obtain hes | hes := List.mem_append.mp hes
  · obtain ⟨col, -, rfl⟩ := List.mem_map.mp hes
    exact balanced_columnDefinition _ _ col
  · split_ifs at hes
    · rw [List.mem_singleton.mp hes]
      exact balanced_clauseTokens _
    · cases hes

/-- Between the parentheses of a table stand its elements. -/
theorem spells_tableElements (columnInfos : List ColumnInfo) :
    Spells d.quotes (d.write (commaList (columnInfos.map
        (columnDefinition d (pkCount columnInfos) (hasAutoInc columnInfos))) ++
      (if pkCount columnInfos > 1 && !hasAutoInc columnInfos then
        lit ", " ++ primaryKeyClause d columnInfos else [])))
      (List.intercalate [.mark ','] (tableElements d columnInfos)) := by
  have hcolumns : ∀ (n : ℕ) (b : Bool) (cols : List ColumnInfo),
      List.Forall₂ (fun t es => Spells d.quotes (d.write t) es)
        (cols.map (columnDefinition d n b))
        (cols.map fun col => .quoted .name col.name :: columnTypeTokens d n b col) := by
    intro n b cols
    induction cols with
    | nil => exact .nil
    | cons col cols ih => exact .cons (spells_columnDefinition n b col) ih
  rw [tableElements]
  split_ifs with hclause
  · have hne : columnInfos ≠ [] := by
      rintro rfl
      simp [pkCount] at hclause
    rw [← commaList_append_singleton (by simpa using hne)]
    exact spells_commaList (List.rel_append (hcolumns _ _ _)
      (.cons (spells_primaryKeyClause columnInfos) .nil))
  · rw [List.append_nil, List.append_nil]
    exact spells_commaList (hcolumns _ _ _)

/-- SQL Server has the table in a literal first. -/
theorem closes_objectId (tableName : String) :
    Closes (Dialect.quotes .mssql) (Dialect.write .mssql (lit "IF OBJECT_ID(N" ++
        quoteWith '\'' '\'' tableName ++ lit ", N'U') IS NULL CREATE TABLE "))
      ([.word "IF".toList, .word "OBJECT_ID".toList, .mark '(', .word "N".toList,
        .quoted .literal tableName, .mark ',', .word "N".toList, .quoted .literal "U", .mark ')'] ++
        ["IS", "NULL", "CREATE", "TABLE"].map fun w => .word w.toList) := by
  have hopen : DefMode.run (Dialect.quotes .mssql) .idle "IF OBJECT_ID(N".toList =
      (.word "N".toList, [.word "IF".toList, .word "OBJECT_ID".toList, .mark '(']) := by
    decide
  have hliteral : DefMode.run (Dialect.quotes .mssql) (.word "N".toList)
      (quoteChars literalQuotes tableName.toList) =
      (.after .literal tableName.toList, [.word "N".toList]) :=
    DefMode.run_quoteChars (k := .literal) rfl (by decide) _
  have hrest : DefMode.run (Dialect.quotes .mssql) .idle
      (',' :: " N'U') IS NULL CREATE TABLE ".toList) =
      (.idle, [.mark ',', .word "N".toList, .quoted .literal "U", .mark ')'] ++
        ["IS", "NULL", "CREATE", "TABLE"].map fun w => .word w.toList) := by
    decide
  have hafter : DefMode.next (Dialect.quotes .mssql) (.after .literal tableName.toList) ',' =
      none := DefMode.next_of_isDelimiter (m := .after .literal tableName.toList) trivial rfl
  have hquote : Dialect.write .mssql (quoteWith '\'' '\'' tableName) =
      quoteChars literalQuotes tableName.toList := render_quoteWith _ literalQuotes tableName
  have hcons : ", N'U') IS NULL CREATE TABLE ".toList =
      ',' :: " N'U') IS NULL CREATE TABLE ".toList := rfl
  rw [Closes, write_append, write_append, write_lit, write_lit, hquote, hcons, DefMode.run_append,
    DefMode.run_append, hopen, hliteral, DefMode.run_of_next hafter, hrest]
  simp [DefMode.finish]

/-- Before the name of the table stand no names. -/
theorem createTablePrefix_tokens (d : Dialect) (tableName : String) :
    ∃ (p : Text) (ts : List DefToken), d.createTablePrefix tableName = p ++ d.quoteId tableName ∧
      Closes d.quotes (d.write p) ts ∧ ∀ t ∈ ts, t.name?.isNone := by
  by_cases hd : d = .mssql
  · subst hd
    refine ⟨_, _, rfl, closes_objectId tableName, ?_⟩
    simp [DefToken.name?]
  · refine ⟨lit "CREATE TABLE IF NOT EXISTS ",
      ["CREATE", "TABLE", "IF", "NOT", "EXISTS"].map fun w => .word w.toList, ?_, ?_, ?_⟩
    · cases d <;> first | rfl | contradiction
    · rw [write_lit]
      cases d <;> decide
    · simp [DefToken.name?]

/-- The tokens of the statement, which begins with words and holds the elements in parentheses. -/
theorem defTokens_generateCreateTable (d : Dialect) (tableName : String)
    (columnInfos : List ColumnInfo) : ∃ ts : List DefToken, (∀ t ∈ ts, t.name?.isNone) ∧
      defTokens d.quotes (d.write (generateCreateTable d tableName columnInfos).sql) =
        ts ++ (.quoted .name tableName :: .mark '(' ::
          (List.intercalate [.mark ','] (tableElements d columnInfos) ++ [.mark ')'])) := by
  obtain ⟨p, ts, hp, hts, hnames⟩ := createTablePrefix_tokens d tableName
  have hname : Spells d.quotes (d.write (d.quoteId tableName)) [.quoted .name tableName] := by
    rw [write_quoteId]
    exact spells_name tableName
  have hopen : Closes d.quotes " (".toList [.mark '('] := by
    cases d <;> decide
  have helements := (spells_tableElements (d := d) columnInfos).append spells_rparen
    (by simp [isDelimiter])
  have hspells := hts.append (hname.append (hopen.append helements) (by simp [isDelimiter]))
  refine ⟨ts, hnames, ?_⟩
  have hsql : d.write (generateCreateTable d tableName columnInfos).sql =
      d.write p ++ (d.write (d.quoteId tableName) ++ (" (".toList ++
        (d.write (commaList (columnInfos.map
          (columnDefinition d (pkCount columnInfos) (hasAutoInc columnInfos))) ++
        (if pkCount columnInfos > 1 && !hasAutoInc columnInfos then
          lit ", " ++ primaryKeyClause d columnInfos else [])) ++ ")".toList))) := by
    simp only [← write_lit d, ← write_append, ← List.append_assoc, ← hp]
    rfl
  rw [hsql, hspells.2]
  rfl

/-- The keys of the text are those of its elements. -/
theorem primaryKeys_eq_flatMap (d : Dialect) (tableName : String) (columnInfos : List ColumnInfo) :
    primaryKeys d.quotes (d.write (generateCreateTable d tableName columnInfos).sql) =
      (tableElements d columnInfos).flatMap elementKeys := by
  obtain ⟨ts, hnames, htokens⟩ := defTokens_generateCreateTable d tableName columnInfos
  rw [primaryKeys, htokens, List.dropWhile_append_of_pos hnames,
    List.dropWhile_cons_of_neg (by simp [DefToken.name?])]
  by_cases hne : tableElements d columnInfos = []
  · rw [hne]
    rfl
  · exact congrArg (List.flatMap elementKeys)
      (elements_intercalate hne (balanced_tableElements columnInfos) fun _ => rfl)

end Texts

/-! ## The keys of a table -/

theorem flatMap_if_singleton {α β : Type*} (p : α → Bool) (f : α → β) (as : List α) :
    (as.flatMap fun a => if p a then [f a] else []) = (as.filter p).map f := by
  induction as with
  | nil => rfl
  | cons a as ih =>
    rw [List.flatMap_cons, ih]
    cases h : p a <;> simp [h]

/-- The keys that the text defines. -/
theorem primaryKeys_generateCreateTable (d : Dialect) (tableName : String)
    (columnInfos : List ColumnInfo) :
    primaryKeys d.quotes (d.write (generateCreateTable d tableName columnInfos).sql) =
      if hasAutoInc columnInfos then
        (columnInfos.filter fun col => col.isAutoIncrement).map fun col => [col.name]
      else if pkCount columnInfos = 0 then []
      else [(columnInfos.filter fun col => col.isPrimaryKey).map ColumnInfo.name] := by
  rw [primaryKeys_eq_flatMap, tableElements, List.flatMap_append, List.flatMap_map]
  simp only [elementKeys_columnDefinition]
  rw [flatMap_if_singleton]
  by_cases hauto : hasAutoInc columnInfos
  · simp [hauto]
  · have hnone : ∀ col ∈ columnInfos, col.isAutoIncrement = false := by
      simpa [hasAutoInc] using hauto
    have hkeys : (columnInfos.filter fun col => col.isAutoIncrement ||
        (col.isPrimaryKey && pkCount columnInfos == 1 && !hasAutoInc columnInfos)) =
        columnInfos.filter fun col => col.isPrimaryKey && pkCount columnInfos == 1 :=
      List.filter_congr fun col hcol => by simp [hnone col hcol, hauto]
    have hcount : pkCount columnInfos =
        (columnInfos.filter fun col => col.isPrimaryKey).length := List.countP_eq_length_filter
    rw [hkeys, if_neg hauto]
    -- none flagged, one, or more
    obtain h0 | h1 | h2 : pkCount columnInfos = 0 ∨ pkCount columnInfos = 1 ∨
        1 < pkCount columnInfos := by omega
    · simp [h0]
    · obtain ⟨col, hcol⟩ := List.length_eq_one_iff.mp (hcount ▸ h1)
      simp [h1, hcol]
    · have hne : pkCount columnInfos ≠ 1 := by omega
      have hpos : pkCount columnInfos ≠ 0 := by omega
      simp [h2, hne, hpos, hauto, elementKeys_clauseTokens]

/-- The text makes the column a primary key, or a part of one. -/
def MakesKey (d : Dialect) (tableName : String) (columnInfos : List ColumnInfo) (name : String) :
    Prop :=
  ∃ key ∈ primaryKeys d.quotes (d.write (generateCreateTable d tableName columnInfos).sql),
    name ∈ key

/-- The text makes keys of the flagged columns and of no others, and defines at most one key. -/
def DeclaresFlaggedKey (d : Dialect) (tableName : String) (columnInfos : List ColumnInfo) : Prop :=
  (∀ name : String, MakesKey d tableName columnInfos name ↔
    ∃ col ∈ columnInfos, col.name = name ∧ col.isPrimaryKey) ∧
  (primaryKeys d.quotes
    (d.write (generateCreateTable d tableName columnInfos).sql)).length ≤ 1

/-- A flagged column beside an auto-increment column is no part of the key, and each of two
auto-increment columns defines a key. -/
theorem not_declaresFlaggedKey :
    (¬ ∀ (d : Dialect) (tableName : String) (columnInfos : List ColumnInfo),
      DeclaresFlaggedKey d tableName columnInfos) ∧
    (¬ MakesKey .sqlite "users"
      [⟨"id", .integer, true, true, true, false, false⟩,
        ⟨"tenant_id", .integer, true, false, true, false, false⟩] "tenant_id") ∧
    primaryKeys (Dialect.quotes .sqlite) (Dialect.write .sqlite (generateCreateTable .sqlite "users"
      [⟨"id", .integer, false, true, false, false, false⟩,
        ⟨"seq", .integer, false, true, false, false, false⟩]).sql) = [["id"], ["seq"]] := by
  have htenant : ¬ MakesKey .sqlite "users"
      [⟨"id", .integer, true, true, true, false, false⟩,
        ⟨"tenant_id", .integer, true, false, true, false, false⟩] "tenant_id" := by
    rintro ⟨key, hkey, hname⟩
    rw [primaryKeys_generateCreateTable] at hkey
    simp [hasAutoInc] at hkey
    subst hkey
    simp at hname
  refine ⟨fun h => htenant (((h .sqlite "users" _).1 "tenant_id").mpr
    ⟨⟨"tenant_id", .integer, true, false, true, false, false⟩, by simp, rfl, rfl⟩), htenant, ?_⟩
  rw [primaryKeys_generateCreateTable]
  rfl

/-- The keys of the text are the auto-increment columns, if the table has any, and the flagged
columns otherwise. At most one key is defined, if at most one column is auto-increment. -/
theorem createTable_keys (d : Dialect) (tableName : String) (columnInfos : List ColumnInfo) :
    (∀ name : String, MakesKey d tableName columnInfos name ↔
      ∃ col ∈ columnInfos, col.name = name ∧
        (if hasAutoInc columnInfos then col.isAutoIncrement else col.isPrimaryKey)) ∧
    (columnInfos.countP (fun col => col.isAutoIncrement) ≤ 1 →
      (primaryKeys d.quotes
        (d.write (generateCreateTable d tableName columnInfos).sql)).length ≤ 1) := by
  simp only [MakesKey, primaryKeys_generateCreateTable]
  constructor
  · intro name
    split_ifs with hauto hcount
    · constructor
      · rintro ⟨key, hkey, hname⟩
        obtain ⟨col, hcol, rfl⟩ := List.mem_map.mp hkey
        rw [List.mem_filter] at hcol
        exact ⟨col, hcol.1, (List.mem_singleton.mp hname).symm, hcol.2⟩
      · rintro ⟨col, hcol, rfl, hkey⟩
        exact ⟨[col.name], List.mem_map.mpr ⟨col, List.mem_filter.mpr ⟨hcol, hkey⟩, rfl⟩,
          List.mem_singleton_self _⟩
    · have hnone : ∀ col ∈ columnInfos, col.isPrimaryKey = false := by
        simpa [pkCount, List.countP_eq_zero] using hcount
      simp only [List.not_mem_nil, false_and, exists_false, false_iff]
      rintro ⟨col, hcol, -, hkey⟩
      simp [hnone col hcol] at hkey
    · constructor
      · rintro ⟨key, hkey, hname⟩
        rw [List.mem_singleton.mp hkey] at hname
        obtain ⟨col, hcol, rfl⟩ := List.mem_map.mp hname
        rw [List.mem_filter] at hcol
        exact ⟨col, hcol.1, rfl, hcol.2⟩
      · rintro ⟨col, hcol, rfl, hkey⟩
        exact ⟨_, List.mem_singleton_self _,
          List.mem_map.mpr ⟨col, List.mem_filter.mpr ⟨hcol, hkey⟩, rfl⟩⟩
  · intro hone
    split_ifs with hauto hcount
    · simpa [List.countP_eq_length_filter] using hone
    · simp
    · simp

/-- A generated number, a flagged column beside it, and one without flags. -/
def userColumns : List ColumnInfo :=
  [⟨"id", .integer, true, true, true, false, false⟩,
    ⟨"tenant_id", .bigInt, true, false, true, false, false⟩,
    ⟨"mail", .text, false, false, false, true, true⟩]

theorem createTable_keys_one :
    (∀ name : String, MakesKey .oracle "users" userColumns name ↔ name = "id") ∧
    (primaryKeys (Dialect.quotes .oracle) (Dialect.write .oracle (generateCreateTable .oracle
      "users" userColumns).sql)).length ≤ 1 := by
  have h := createTable_keys .oracle "users" userColumns
  refine ⟨fun name => (h.1 name).trans ⟨?_, ?_⟩, h.2 (by decide)⟩
  · rintro ⟨col, hcol, rfl, hauto⟩
    simp only [userColumns, List.mem_cons, List.not_mem_nil, or_false] at hcol
    rcases hcol with rfl | rfl | rfl
    · rfl
    · contradiction
    · contradiction
  · rintro rfl
    exact ⟨_, List.mem_cons_self, rfl, rfl⟩

end CppLinq
