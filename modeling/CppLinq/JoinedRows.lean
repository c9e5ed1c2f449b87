import CppLinq.QueryBuilder
import CppLinq.QueryReading

/-!
# Rows of joins

The entities that `to_list` of the builders of joins makes of the rows of a join. The generator
lists the columns of the tables one after the other, and each entity is read by a `RowMapper` that
begins at an offset of its own. A database reads the select list of the statement that it is given
(`selectedColumns`), and its rows have the values of the columns that it has read.
-/

namespace CppLinq

open Reader

/-! ## Mapping a row -/

/-- A column of a table, and the member that it is the column of. -/
structure MappedColumn (M : Type) where
  name : String
  member : M

/-- How the members of an entity are filled from cells. -/
structure EntityFields (C M : Type) where
  Val : M → Type
  /-- The members of `Entity{}`. -/
  init : ∀ m, Val m
  /-- What a null column leaves : `std::nullopt`, or `FieldType{}`. -/
  ofNull : ∀ m, Val m
  /-- `read_column_value` or `assign_column_value` of the type of a member. -/
  read : ∀ m, C → Val m

/-- An entity, by its members. -/
abbrev EntityFields.Entity {C M : Type} (fields : EntityFields C M) : Type :=
  ∀ m, fields.Val m

/-- The value of a member whose column has a cell. -/
def EntityFields.ofCell {C M : Type} (fields : EntityFields C M) (isNull : C → Bool) (m : M)
    (c : C) : fields.Val m :=
  if isNull c then fields.ofNull m else fields.read m c

/-- The columns of a table, and the number of columns of the tables before it in a row. -/
structure RowMapper (C M : Type) where
  fields : EntityFields C M
  columns : List (MappedColumn M)
  offset : ℕ := 0

namespace RowMapper

variable {C M : Type} [DecidableEq M] (mapper : RowMapper C M) (isNull : C → Bool) (reader : List C)

/-- The reader gives no cell at an index outside of its row, and nothing is mapped then. -/
def mapSingleColumn (i : ℕ) (col : MappedColumn M) (entity : mapper.fields.Entity) :
    Option mapper.fields.Entity := do
  let colIdx := i + mapper.offset
  let c ← reader[colIdx]?
  return Function.update entity col.member (mapper.fields.ofCell isNull col.member c)

/-- `map_columns`, from the column with an index on. -/
def mapColumns : List (MappedColumn M) → ℕ → mapper.fields.Entity → Option mapper.fields.Entity
  | [], _, entity => some entity
  | col :: cols, i, entity => do
    let entity ← mapper.mapSingleColumn isNull reader i col entity
    mapColumns cols (i + 1) entity

/-- `check_all_null`, from the column with an index on. -/
def checkAllNull : List (MappedColumn M) → ℕ → Option Bool
  | [], _ => some true
  | _ :: cols, i => do
    let c ← reader[i + mapper.offset]?
    if isNull c then checkAllNull cols (i + 1) else return false

/-- `map_row` : every column of the table of the mapper is read into its member. -/
def mapRow (entity : mapper.fields.Entity) : Option mapper.fields.Entity :=
  mapper.mapColumns isNull reader mapper.columns 0 entity

/-- `is_all_null` : no column of the table of the mapper has a value. -/
def isAllNull : Option Bool :=
  mapper.checkAllNull isNull reader mapper.columns 0

end RowMapper

/-! ## The lists of joins -/

/-- What an item of a list has for a joined table. -/
abbrev JoinType.Slot : JoinType → Type → Type
  | .inner, E => E
  | .left, E => Option E

/-- The entity of a joined table, in a loop of `to_list`. -/
def RowMapper.mapJoined {C M : Type} [DecidableEq M] (mapper : RowMapper C M) (isNull : C → Bool)
    (reader : List C) : (join : JoinType) → Option (join.Slot mapper.fields.Entity)
  | .inner => mapper.mapRow isNull reader mapper.fields.init
  | .left => do
    if ← mapper.isAllNull isNull reader then return none
    else return some (← mapper.mapRow isNull reader mapper.fields.init)

/-- A connection : its dialect, the cells that are null and the rows of the reader of a statement,
if there is a reader. -/
structure ReadingConnection (C : Type) where
  dialect : Dialect
  isNull : C → Bool
  execute : GeneratedSql → Option (List (List C))

/-- `get_tuple_column_names`. -/
def columnNames {M : Type} (cols : List (MappedColumn M)) : List String :=
  cols.map (·.name)

section

variable {C M₁ M₂ M₃ : Type} [DecidableEq M₁] [DecidableEq M₂] [DecidableEq M₃]

namespace JoinedQueryBuilder

/-- The builder with the names of its columns. -/
def withColumns (q : JoinedQueryBuilder) (cols₁ : List (MappedColumn M₁))
    (cols₂ : List (MappedColumn M₂)) : JoinedQueryBuilder :=
  { q with primaryCols := columnNames cols₁, joinedCols := columnNames cols₂ }

/-- `to_list`. The columns of the first table are read from the start of a row, those of the
second behind them. -/
def toList (q : JoinedQueryBuilder) (conn : ReadingConnection C) (fields₁ : EntityFields C M₁)
    (cols₁ : List (MappedColumn M₁)) (fields₂ : EntityFields C M₂)
    (cols₂ : List (MappedColumn M₂)) :
    Except Exn (Option (List (fields₁.Entity × q.joinType.Slot fields₂.Entity))) := do
  let primNames := columnNames cols₁
  let result ← generate conn.dialect (q.withColumns cols₁ cols₂).selectCall
  let n₁ := primNames.length
  let mapper₁ : RowMapper C M₁ := ⟨fields₁, cols₁, 0⟩
  let mapper₂ : RowMapper C M₂ := ⟨fields₂, cols₂, n₁⟩
  return ((conn.execute result).getD []).mapM fun reader => do
    let first ← mapper₁.mapRow conn.isNull reader fields₁.init
    let second ← mapper₂.mapJoined conn.isNull reader q.joinType
    return (first, second)

end JoinedQueryBuilder

namespace Joined3QueryBuilder

/-- The builder with the names of its columns. -/
def withColumns (q : Joined3QueryBuilder) (cols₁ : List (MappedColumn M₁))
    (cols₂ : List (MappedColumn M₂)) (cols₃ : List (MappedColumn M₃)) : Joined3QueryBuilder :=
  { q with
    primaryCols := columnNames cols₁
    joinedCols2 := columnNames cols₂
    joinedCols3 := columnNames cols₃ }

/-- `to_list` of a join of three tables. -/
def toList (q : Joined3QueryBuilder) (conn : ReadingConnection C) (fields₁ : EntityFields C M₁)
    (cols₁ : List (MappedColumn M₁)) (fields₂ : EntityFields C M₂)
    (cols₂ : List (MappedColumn M₂)) (fields₃ : EntityFields C M₃)
    (cols₃ : List (MappedColumn M₃)) :
    Except Exn (Option (List (fields₁.Entity × q.joinType1.Slot fields₂.Entity ×
      q.joinType2.Slot fields₃.Entity))) := do
  let primNames := columnNames cols₁
  let join2Names := columnNames cols₂
  let result ← generate conn.dialect (q.withColumns cols₁ cols₂ cols₃).selectCall
  let n₁ := primNames.length
  let n₂ := join2Names.length
  let mapper₁ : RowMapper C M₁ := ⟨fields₁, cols₁, 0⟩
  let mapper₂ : RowMapper C M₂ := ⟨fields₂, cols₂, n₁⟩
  let mapper₃ : RowMapper C M₃ := ⟨fields₃, cols₃, n₁ + n₂⟩
  return ((conn.execute result).getD []).mapM fun reader => do
    let first ← mapper₁.mapRow conn.isNull reader fields₁.init
    let second ← mapper₂.mapJoined conn.isNull reader q.joinType1
    let third ← mapper₃.mapJoined conn.isNull reader q.joinType2
    return (first, second, third)

end Joined3QueryBuilder

end

/-! ## Selected columns -/

/-- The columns between `SELECT`, with what may stand behind it, and `FROM`. -/
def readSelected (d : Dialect) : Reader Char (List ColumnRef) := do
  exactly "SELECT ".toList
  let _ ← readFirst d
  let _ ← readDistinct
  let columns ← sepBy ", ".toList (readColumn d) <|> return []
  exactly " FROM ".toList
  return columns

/-- The columns that a statement selects, if its select list can be read. -/
def selectedColumns (d : Dialect) (sql : Text) : Option (List ColumnRef) :=
  ((readSelected d).run (d.write sql)).map Prod.fst

/-- The values of a row of a join, by the names of tables and of columns. -/
abbrev JoinedRow (C : Type) := String → String → C

/-- What a row has in columns. -/
def JoinedRow.cells {C : Type} (columns : List ColumnRef) (row : JoinedRow C) : List C :=
  columns.map fun ref => row ref.tableName ref.columnName

/-- The cells of a joined row are those of its tables, one after another. -/
theorem JoinedRow.cells_cons {C : Type} (table : String) (names : List String)
    (tables : List (String × List String)) (row : JoinedRow C) :
    row.cells (joinedRefs ((table, names) :: tables)) =
      names.map (row table) ++ row.cells (joinedRefs tables) := by
  rw [cells, joinedRefs, List.flatMap_cons, List.map_append, List.map_map]
  rfl

section

variable {d : Dialect} {rest : List Char} (tables : List (String × List String))

/-- No restriction and no `DISTINCT` begin like the columns of a join. -/
theorem head_joinedColumns {c : Char} (hc : c ∈ ['S', 'F', 'D']) :
    (d.write (joinedColumns d tables) ++ (" FROM ".toList ++ rest)).head? ≠ some c := by
  by_cases hne : joinedRefs tables = []
  · have hnil : d.write (joinedColumns d tables) = [] := by
      rw [joinedColumns_eq, hne]
      rfl
    rw [hnil]
    simp only [List.mem_cons, List.not_mem_nil, or_false] at hc
    rcases hc with rfl | rfl | rfl <;> simp
  · exact (isSelectList_joined hne).head c hc rest

/-- The columns of the tables are read one after the other. There may be none. -/
theorem takes_joinedColumns :
    Takes (sepBy ", ".toList (readColumn d) <|> return []) (d.write (joinedColumns d tables))
      (joinedRefs tables) (" FROM ".toList ++ rest) := by
  by_cases hne : joinedRefs tables = []
  · rw [joinedColumns_eq, hne]
    refine Takes.orElse_right (run_sepBy_eq_none (run_bind_eq_none ?_)) (takes_pure [] _)
    cases d <;> rfl
  · have hlist : Takes (sepBy ", ".toList (readColumn d))
        (d.write (commaList ((joinedRefs tables).map (ColumnRef.sql d))))
        ((joinedRefs tables).map id) (" FROM ".toList ++ rest) :=
      takes_columnList _ id hne
        fun ref _ r hstops _ => takes_tableColumn ref.tableName ref.columnName hstops
    rw [← joinedColumns_eq, List.map_id] at hlist
    exact hlist.orElse

/-- The select list of a join is read back from its text. -/
theorem takes_selected {after : List Char} {limit offset : Option ℕ} :
    Takes (readSelected d) ("SELECT ".toList ++
      ((d.selectPrefixLimitOffset limit offset).toList ++ (d.write (distinctWord false) ++
        (d.write (joinedColumns d tables) ++ (" FROM ".toList ++ []))))) (joinedRefs tables)
      after := by
  have hword : d.write (distinctWord false) = [] := rfl
  have hhead : ∀ c ∈ ['S', 'F', 'D'], ((d.write (distinctWord false) ++
      (d.write (joinedColumns d tables) ++ (" FROM ".toList ++ []))) ++ after).head? ≠ some c := by
    intro c hc
    rw [hword, List.nil_append, List.append_nil, List.append_assoc]
    exact head_joinedColumns tables hc
  refine takes_exactly_bind ((takes_first d limit offset ?_ ?_).bind ?_)
  · exact dropPrefix?_of_head rfl (hhead 'S' (by decide))
  · exact dropPrefix?_of_head rfl (hhead 'F' (by decide))
  have hfrom : Takes (do exactly " FROM ".toList; return joinedRefs tables)
      (" FROM ".toList ++ []) (joinedRefs tables) after :=
    takes_exactly_bind (takes_pure _ after)
  refine (takes_distinct false ?_).bind ((takes_joinedColumns tables).bind hfrom)
  rw [hword, List.nil_append] at hhead
  exact hhead 'D' (by decide)

/-- The select list of a join is read as the columns of its tables, in order. -/
theorem selectedColumns_generate {table : String} {names : List String} {joins : List JoinClause}
    {joined : List (String × List String)} {w : Option ExprNode} {order : List OrderByExpr}
    {limit offset : Option ℕ} {sql : GeneratedSql}
    (h : generate d (.joinedSelect table names joins joined w order limit offset false) = .ok sql) :
    selectedColumns d sql.sql = some (joinedRefs ((table, names) :: joined)) := by
  rw [generate, generateJoinedSelect] at h
  cases hpaging : d.limitOffset limit offset with
  | error e =>
    rw [hpaging] at h
    contradiction
  | ok paging =>
    rw [hpaging] at h
    let joinStr := joinList d joins (.start 0)
    let whereStr := whereClause d w joinStr.2
    let orderStr := orderByClause d order limit offset paging whereStr.2
    let after := d.quoteId table ++ joinStr.1 ++ whereStr.1 ++ orderStr.1 ++ lit paging
    let columns := joinedColumns d ((table, names) :: joined)
    have hsql : sql.sql = lit "SELECT " ++ (lit (d.selectPrefixLimitOffset limit offset) ++
        (distinctWord false ++ (columns ++ (lit " FROM " ++ after)))) := by
      rw [← Except.ok.inj h]
      change lit "SELECT " ++ lit (d.selectPrefixLimitOffset limit offset) ++ distinctWord false ++
        columns ++ lit " FROM " ++ d.quoteId table ++ joinStr.1 ++ whereStr.1 ++ orderStr.1 ++
        lit paging = _
      simp only [after, List.append_assoc]
    have hwritten : d.write sql.sql = "SELECT ".toList ++
        ((d.selectPrefixLimitOffset limit offset).toList ++ (d.write (distinctWord false) ++
          (d.write columns ++ (" FROM ".toList ++ [])))) ++ d.write after := by
      rw [hsql]
      simp only [write_append, write_lit, List.append_assoc, List.nil_append]
    have hselected := @takes_selected d ((table, names) :: joined) (d.write after) limit offset
    unfold Takes at hselected
    rw [selectedColumns, hwritten, hselected]
    rfl

end

/-! ## Filled entities -/

section

variable {C M : Type} (isNull : C → Bool) (fields : EntityFields C M)

/-- The members of an entity have the values of the columns with their names, each of the last of
its columns. A member without a column has what it had at first. -/
def FilledFrom (cols : List (MappedColumn M)) (row : String → C) (entity : fields.Entity) : Prop :=
  (∀ before col after, cols = before ++ col :: after →
    (∀ col' ∈ after, col'.member ≠ col.member) →
      entity col.member = fields.ofCell isNull col.member (row col.name)) ∧
  ∀ m, (∀ col ∈ cols, col.member ≠ m) → entity m = fields.init m

/-- The entity of a joined table is filled. A left join leaves it out if and only if its columns
are all null. -/
def SlotFilledFrom (cols : List (MappedColumn M)) (row : String → C) :
    (join : JoinType) → join.Slot fields.Entity → Prop
  | .inner, entity => FilledFrom isNull fields cols row entity
  | .left, slot =>
    (slot = none ↔ ∀ col ∈ cols, isNull (row col.name)) ∧
      ∀ entity, slot = some entity → FilledFrom isNull fields cols row entity

end

section

variable {C M : Type} [DecidableEq M] {isNull : C → Bool}

/-- The members after the columns of a list. -/
def fillColumns (isNull : C → Bool) (fields : EntityFields C M) (row : String → C) :
    List (MappedColumn M) → fields.Entity → fields.Entity
  | [], entity => entity
  | col :: cols, entity => fillColumns isNull fields row cols
      (Function.update entity col.member (fields.ofCell isNull col.member (row col.name)))

section

variable {fields : EntityFields C M} {row : String → C}

/-- A member that no column is mapped to stays as it was. -/
theorem fillColumns_of_forall_ne {m : M} : ∀ {cols : List (MappedColumn M)}
    {entity : fields.Entity}, (∀ col ∈ cols, col.member ≠ m) →
      fillColumns isNull fields row cols entity m = entity m
  | [], _, _ => rfl
  | col :: cols, entity, h => by
    obtain ⟨hcol, hcols⟩ := List.forall_mem_cons.mp h
    rw [fillColumns, fillColumns_of_forall_ne hcols, Function.update_of_ne hcol.symm]

/-- The last column of a member decides. -/
theorem fillColumns_append (before cols : List (MappedColumn M)) (entity : fields.Entity) :
    fillColumns isNull fields row (before ++ cols) entity =
      fillColumns isNull fields row cols (fillColumns isNull fields row before entity) := by
  induction before generalizing entity with
  | nil => rfl
  | cons col before ih => exact ih _

/-- The columns fill an entity from the row. -/
theorem filledFrom_fillColumns (cols : List (MappedColumn M)) :
    FilledFrom isNull fields cols row (fillColumns isNull fields row cols fields.init) := by
  refine ⟨?_, fun m h => fillColumns_of_forall_ne h⟩
  rintro before col after rfl hlast
  rw [fillColumns_append, fillColumns, fillColumns_of_forall_ne hlast, Function.update_self]

end

/-! ## The part of a mapper -/

namespace RowMapper

variable (mapper : RowMapper C M) {row : String → C} {reader before : List C}

omit [DecidableEq M] in
/-- The cell of the first of the columns that are left. -/
theorem getElem?_reader {col : MappedColumn M} {cols : List (MappedColumn M)} {rest : List C}
    {i : ℕ} (hreader : reader = before ++ (columnNames (col :: cols)).map row ++ rest)
    (hbefore : before.length = i + mapper.offset) :
    reader[i + mapper.offset]? = some (row col.name) ∧
      reader = (before ++ [row col.name]) ++ (columnNames cols).map row ++ rest ∧
      (before ++ [row col.name]).length = i + 1 + mapper.offset := by
  refine ⟨?_, ?_, ?_⟩
  · rw [hreader, ← hbefore, List.append_assoc, List.getElem?_append_right le_rfl, Nat.sub_self]
    rfl
  · rw [hreader, List.append_assoc before [row col.name]]
    rfl
  · rw [List.length_append, hbefore, List.length_singleton]
    omega

/-- The loop of `map_row` fills the entity from its own part of the row. -/
theorem mapColumns_eq {rest : List C} : ∀ {cols : List (MappedColumn M)} {i : ℕ} {before : List C}
    (entity : mapper.fields.Entity), reader = before ++ (columnNames cols).map row ++ rest →
      before.length = i + mapper.offset →
      mapper.mapColumns isNull reader cols i entity =
        some (fillColumns isNull mapper.fields row cols entity)
  | [], _, _, _, _, _ => rfl
  | col :: cols, i, before, entity, hreader, hbefore => by
    obtain ⟨hcell, hreader, hbefore⟩ := mapper.getElem?_reader hreader hbefore
    have hsingle : mapper.mapSingleColumn isNull reader i col entity = some
        (Function.update entity col.member
          (mapper.fields.ofCell isNull col.member (row col.name))) := by
      rw [mapSingleColumn, hcell]
      rfl
    rw [mapColumns, hsingle]
    exact mapColumns_eq _ hreader hbefore

omit [DecidableEq M] in
/-- The loop of `is_all_null` looks at the same part. -/
theorem checkAllNull_eq {rest : List C} : ∀ {cols : List (MappedColumn M)} {i : ℕ}
    {before : List C}, reader = before ++ (columnNames cols).map row ++ rest →
      before.length = i + mapper.offset →
      mapper.checkAllNull isNull reader cols i = some (cols.all fun col => isNull (row col.name))
  | [], _, _, _, _ => rfl
  | col :: cols, i, before, hreader, hbefore => by
    obtain ⟨hcell, hreader, hbefore⟩ := mapper.getElem?_reader hreader hbefore
    rw [checkAllNull, hcell, Option.bind_eq_bind, Option.bind_some, List.all_cons]
    cases isNull (row col.name) with
    | false => rfl
    | true => exact checkAllNull_eq hreader hbefore

variable {mapper} {rest : List C}

/-- The columns of the table of a mapper are those from its offset on. -/
theorem mapRow_eq (hreader : reader = before ++ (columnNames mapper.columns).map row ++ rest)
    (hbefore : before.length = mapper.offset) (entity : mapper.fields.Entity) :
    mapper.mapRow isNull reader entity =
      some (fillColumns isNull mapper.fields row mapper.columns entity) :=
  mapper.mapColumns_eq entity hreader (hbefore.trans (Nat.zero_add _).symm)

omit [DecidableEq M] in
theorem isAllNull_eq (hreader : reader = before ++ (columnNames mapper.columns).map row ++ rest)
    (hbefore : before.length = mapper.offset) :
    mapper.isAllNull isNull reader = some (mapper.columns.all fun col => isNull (row col.name)) :=
  mapper.checkAllNull_eq hreader (hbefore.trans (Nat.zero_add _).symm)

variable (mapper) (isNull)

/-- `map_row` makes the entity of that part. -/
theorem exists_mapRow (hreader : reader = before ++ (columnNames mapper.columns).map row ++ rest)
    (hbefore : before.length = mapper.offset) :
    ∃ entity, mapper.mapRow isNull reader mapper.fields.init = some entity ∧
      FilledFrom isNull mapper.fields mapper.columns row entity :=
  ⟨_, mapRow_eq hreader hbefore _, filledFrom_fillColumns _⟩

/-- A left join makes it unless all its cells are NULL. -/
theorem exists_mapJoined
    (hreader : reader = before ++ (columnNames mapper.columns).map row ++ rest)
    (hbefore : before.length = mapper.offset) (join : JoinType) :
    ∃ slot, mapper.mapJoined isNull reader join = some slot ∧
      SlotFilledFrom isNull mapper.fields mapper.columns row join slot := by
  obtain ⟨entity, hmap, hfilled⟩ := mapper.exists_mapRow isNull hreader hbefore
  cases join with
  | inner => exact ⟨entity, hmap, hfilled⟩
  | left =>
    rw [mapJoined, isAllNull_eq hreader hbefore, hmap]
    cases hall : mapper.columns.all fun col => isNull (row col.name) with
    | true => exact ⟨none, rfl, iff_of_true rfl (List.all_eq_true.mp hall), nofun⟩
    | false =>
      refine ⟨some entity, rfl, iff_of_false nofun fun h => ?_, ?_⟩
      · rw [List.all_eq_true.mpr h] at hall
        contradiction
      · rintro _ ⟨⟩
        exact hfilled

end RowMapper

end

/-! ## The results of `to_list` -/

/-- What is listed for the rows that a database has for a statement : what generating the statement
throws, or an item for each row, in order. -/
def ListsRows {C Item : Type} (select : Except Exn GeneratedSql)
    (rows : GeneratedSql → Option (List (JoinedRow C))) (Filled : JoinedRow C → Item → Prop)
    (result : Except Exn (Option (List Item))) : Prop :=
  match select with
  | .error e => result = .error e
  | .ok sql => ∃ items, result = .ok (some items) ∧ List.Forall₂ Filled ((rows sql).getD []) items

/-- A connection to a database, whose readers have the values of the columns that the text of a
statement selects. -/
def projectingConnection {C : Type} (d : Dialect) (isNull : C → Bool)
    (rows : GeneratedSql → Option (List (JoinedRow C))) : ReadingConnection C where
  dialect := d
  isNull := isNull
  execute sql := do
    let columns ← selectedColumns d sql.sql
    return (← rows sql).map (JoinedRow.cells columns)

/-- A list has an item for every row of a reader, if each row has one. -/
theorem exists_mapM_forall₂ {R Row Item : Type} {cells : Row → R} {f : R → Option Item}
    {P : Row → Item → Prop} (h : ∀ row, ∃ item, f (cells row) = some item ∧ P row item) :
    ∀ rows : List Row, ∃ items, (rows.map cells).mapM f = some items ∧ List.Forall₂ P rows items
  | [] => ⟨[], rfl, .nil⟩
  | row :: rows => by
    obtain ⟨item, hitem, hrow⟩ := h row
    obtain ⟨items, hitems, hrows⟩ := exists_mapM_forall₂ h rows
    refine ⟨item :: items, ?_, .cons hrow hrows⟩
    rw [List.map_cons, List.mapM_cons, hitem, hitems]
    rfl

section

variable {C M₁ M₂ M₃ : Type} [DecidableEq M₁] [DecidableEq M₂] [DecidableEq M₃]
variable (d : Dialect) (isNull : C → Bool) (rows : GeneratedSql → Option (List (JoinedRow C)))
variable (fields₁ : EntityFields C M₁) (cols₁ : List (MappedColumn M₁))
variable (fields₂ : EntityFields C M₂) (cols₂ : List (MappedColumn M₂))
variable (fields₃ : EntityFields C M₃) (cols₃ : List (MappedColumn M₃))

/-- The loop over the rows of a reader, after the statement is generated. -/
theorem listsRows_of_forall {Item : Type} {columns : List ColumnRef}
    {select : Except Exn GeneratedSql} {item : List C → Option Item}
    {Filled : JoinedRow C → Item → Prop}
    (hselect : ∀ sql, select = .ok sql → selectedColumns d sql.sql = some columns)
    (hitem : ∀ row : JoinedRow C, ∃ x, item (row.cells columns) = some x ∧ Filled row x) :
    ListsRows select rows Filled (do
      let result ← select
      return (((projectingConnection d isNull rows).execute result).getD []).mapM item) := by
  cases select with
  | error e => rfl
  | ok sql =>
    obtain ⟨items, hitems, hfilled⟩ := exists_mapM_forall₂ hitem ((rows sql).getD [])
    have hread : ((projectingConnection d isNull rows).execute sql).getD [] =
        ((rows sql).getD []).map (JoinedRow.cells columns) := by
      change ((selectedColumns d sql.sql).bind fun columns =>
        (rows sql).bind fun rs => some (rs.map (JoinedRow.cells columns))).getD [] = _
      rw [hselect sql rfl]
      cases rows sql with
      | none => rfl
      | some _ => rfl
    refine ⟨items, ?_, hfilled⟩
    change Except.ok ((((projectingConnection d isNull rows).execute sql).getD []).mapM item) = _
    rw [hread, hitems]

namespace JoinedQueryBuilder

variable (q : JoinedQueryBuilder)

/-- The tables of the join, with the names of their columns. -/
def tables : List (String × List String) :=
  [(q.primaryTable, columnNames cols₁), (q.joinedTable, columnNames cols₂)]

/-- A pair has the values of a row. -/
def Filled (row : JoinedRow C) (item : fields₁.Entity × q.joinType.Slot fields₂.Entity) : Prop :=
  FilledFrom isNull fields₁ cols₁ (row q.primaryTable) item.1 ∧
    SlotFilledFrom isNull fields₂ cols₂ (row q.joinedTable) q.joinType item.2

theorem listsRows_toList :
    ListsRows (generate d (q.withColumns cols₁ cols₂).selectCall) rows
      (q.Filled isNull fields₁ cols₁ fields₂ cols₂)
      (q.toList (projectingConnection d isNull rows) fields₁ cols₁ fields₂ cols₂) := by
  have hselect : ∀ sql, generate d (q.withColumns cols₁ cols₂).selectCall = .ok sql →
      selectedColumns d sql.sql = some (joinedRefs (q.tables cols₁ cols₂)) :=
    fun _ h => selectedColumns_generate h
  refine listsRows_of_forall d isNull rows hselect fun row => ?_
  let mapper₁ : RowMapper C M₁ := ⟨fields₁, cols₁, 0⟩
  let mapper₂ : RowMapper C M₂ := ⟨fields₂, cols₂, (columnNames cols₁).length⟩
  let own₁ := (columnNames cols₁).map (row q.primaryTable)
  let own₂ := (columnNames cols₂).map (row q.joinedTable)
  have hrow : row.cells (joinedRefs (q.tables cols₁ cols₂)) = own₁ ++ (own₂ ++ []) := by
    rw [tables, JoinedRow.cells_cons, JoinedRow.cells_cons]
    rfl
  have hpart₁ : row.cells (joinedRefs (q.tables cols₁ cols₂)) = [] ++ own₁ ++ (own₂ ++ []) := hrow
  have hpart₂ : row.cells (joinedRefs (q.tables cols₁ cols₂)) = own₁ ++ own₂ ++ [] := by
    rw [hrow, List.append_assoc]
  obtain ⟨first, hfirst, hfilled₁⟩ := mapper₁.exists_mapRow isNull hpart₁ rfl
  obtain ⟨second, hsecond, hfilled₂⟩ := mapper₂.exists_mapJoined isNull hpart₂
    (List.length_map _) q.joinType
  refine ⟨(first, second), ?_, hfilled₁, hfilled₂⟩
  change (mapper₁.mapRow isNull _ fields₁.init).bind _ = _
  rw [hfirst]
  change (mapper₂.mapJoined isNull _ q.joinType).bind _ = _
  rw [hsecond]
  rfl

end JoinedQueryBuilder

namespace Joined3QueryBuilder

variable (q : Joined3QueryBuilder)

/-- The tables of the join, with the names of their columns. -/
def tables : List (String × List String) :=
  [(q.primaryTable, columnNames cols₁), (q.joinedTable2, columnNames cols₂),
    (q.joinedTable3, columnNames cols₃)]

/-- A triple has the values of a row. -/
def Filled (row : JoinedRow C)
    (item : fields₁.Entity × q.joinType1.Slot fields₂.Entity × q.joinType2.Slot fields₃.Entity) :
    Prop :=
  FilledFrom isNull fields₁ cols₁ (row q.primaryTable) item.1 ∧
    SlotFilledFrom isNull fields₂ cols₂ (row q.joinedTable2) q.joinType1 item.2.1 ∧
    SlotFilledFrom isNull fields₃ cols₃ (row q.joinedTable3) q.joinType2 item.2.2

theorem listsRows_toList :
    ListsRows (generate d (q.withColumns cols₁ cols₂ cols₃).selectCall) rows
      (q.Filled isNull fields₁ cols₁ fields₂ cols₂ fields₃ cols₃)
      (q.toList (projectingConnection d isNull rows) fields₁ cols₁ fields₂ cols₂ fields₃
        cols₃) := by
  have hselect : ∀ sql, generate d (q.withColumns cols₁ cols₂ cols₃).selectCall = .ok sql →
      selectedColumns d sql.sql = some (joinedRefs (q.tables cols₁ cols₂ cols₃)) :=
    fun _ h => selectedColumns_generate h
  refine listsRows_of_forall d isNull rows hselect fun row => ?_
  let mapper₁ : RowMapper C M₁ := ⟨fields₁, cols₁, 0⟩
  let mapper₂ : RowMapper C M₂ := ⟨fields₂, cols₂, (columnNames cols₁).length⟩
  let mapper₃ : RowMapper C M₃ :=
    ⟨fields₃, cols₃, (columnNames cols₁).length + (columnNames cols₂).length⟩
  let own₁ := (columnNames cols₁).map (row q.primaryTable)
  let own₂ := (columnNames cols₂).map (row q.joinedTable2)
  let own₃ := (columnNames cols₃).map (row q.joinedTable3)
  have hrow : row.cells (joinedRefs (q.tables cols₁ cols₂ cols₃)) =
      own₁ ++ (own₂ ++ (own₃ ++ [])) := by
    rw [tables, JoinedRow.cells_cons, JoinedRow.cells_cons, JoinedRow.cells_cons]
    rfl
  have hpart₁ : row.cells (joinedRefs (q.tables cols₁ cols₂ cols₃)) =
      [] ++ own₁ ++ (own₂ ++ (own₃ ++ [])) := hrow
  have hpart₂ : row.cells (joinedRefs (q.tables cols₁ cols₂ cols₃)) =
      own₁ ++ own₂ ++ (own₃ ++ []) := by
    rw [hrow, List.append_assoc]
  have hpart₃ : row.cells (joinedRefs (q.tables cols₁ cols₂ cols₃)) =
      own₁ ++ own₂ ++ own₃ ++ [] := by
    rw [hpart₂, List.append_assoc _ own₃]
  have hlength₃ : (own₁ ++ own₂).length = mapper₃.offset := by
    rw [List.length_append, List.length_map, List.length_map]
  obtain ⟨first, hfirst, hfilled₁⟩ := mapper₁.exists_mapRow isNull hpart₁ rfl
  obtain ⟨second, hsecond, hfilled₂⟩ := mapper₂.exists_mapJoined isNull hpart₂
    (List.length_map _) q.joinType1
  obtain ⟨third, hthird, hfilled₃⟩ := mapper₃.exists_mapJoined isNull hpart₃ hlength₃ q.joinType2
  refine ⟨(first, second, third), ?_, hfilled₁, hfilled₂, hfilled₃⟩
  change (mapper₁.mapRow isNull _ fields₁.init).bind _ = _
  rw [hfirst]
  change (mapper₂.mapJoined isNull _ q.joinType1).bind _ = _
  rw [hsecond]
  change (mapper₃.mapJoined isNull _ q.joinType2).bind _ = _
  rw [hthird]
  rfl

end Joined3QueryBuilder

/-- The rows of every join of two or of three tables are split at the right columns : no index is
outside of a row, each field has the value of the column of its table and name, and a left join
leaves an entity out if and only if all its columns are null. -/
theorem toList_joins (q : JoinedQueryBuilder) (q₃ : Joined3QueryBuilder) :
    ListsRows (generate d (q.withColumns cols₁ cols₂).selectCall) rows
      (q.Filled isNull fields₁ cols₁ fields₂ cols₂)
      (q.toList (projectingConnection d isNull rows) fields₁ cols₁ fields₂ cols₂) ∧
    ListsRows (generate d (q₃.withColumns cols₁ cols₂ cols₃).selectCall) rows
      (q₃.Filled isNull fields₁ cols₁ fields₂ cols₂ fields₃ cols₃)
      (q₃.toList (projectingConnection d isNull rows) fields₁ cols₁ fields₂ cols₂ fields₃ cols₃) :=
  ⟨q.listsRows_toList d isNull rows fields₁ cols₁ fields₂ cols₂,
    q₃.listsRows_toList d isNull rows fields₁ cols₁ fields₂ cols₂ fields₃ cols₃⟩

end

end CppLinq
