import CppLinq.Dialect

/-!
# The SQL generator

`SqlGenerator` (`src/sql_generator.cpp`). `visit` writes an expression tree and records
the slots of its value nodes; the `generate` functions assemble the statements around it.
`GenerateCall` is a call of any of them, and `generate` its result.

A `std::string` built by appending is a `Text` here. The context and the parameter vector
that the source passes by reference are the state of `Gen`.
-/

namespace CppLinq

/-- The parameters and slots recorded so far, and the index of the next placeholder. -/
structure Context where
  params : List BoundValue := []
  slots : List ParameterSlot := []
  paramCounter : ℕ := 0
  deriving DecidableEq, Repr

/-- The empty context, numbering from `k`. -/
def Context.start (k : ℕ) : Context :=
  ⟨[], [], k⟩

/-- A step of text generation. -/
abbrev Gen := StateM Context

/-- `GeneratedSql`. -/
structure GeneratedSql where
  sql : Text
  params : List BoundValue
  slots : List ParameterSlot
  deriving DecidableEq, Repr

/-- `JoinClause`. -/
structure JoinClause where
  joinType : String
  tableName : String
  onCondition : ExprNode

/-- `SetOpType`. -/
inductive SetOpType
  | union | unionAll | intersect | except
  deriving DecidableEq, Repr

/-- `CteClause`. -/
structure CteClause where
  name : String
  subquery : SubqueryExpr

/-- `SetOpClause`. -/
structure SetOpClause where
  opType : SetOpType
  tableName : String
  columns : List String
  where_ : Option ExprNode := none
  isDistinct : Bool := false

/-! ## Words of the language -/

/-- The text of a comparison. -/
def CompareOp.sql : CompareOp → String
  | .eq => " = "
  | .ne => " <> "
  | .lt => " < "
  | .le => " <= "
  | .gt => " > "
  | .ge => " >= "

/-- The word of a connective. -/
def LogicOp.sql : LogicOp → String
  | .and => " AND "
  | .or => " OR "

/-- The word of a direction. -/
def SortDir.sql : SortDir → String
  | .asc => " ASC"
  | .desc => " DESC"

/-- The word of a part of a date. -/
def DatePart.sql : DatePart → String
  | .year => "YEAR"
  | .month => "MONTH"
  | .day => "DAY"

/-- The words of a set operator, with blanks around them. -/
def SetOpType.sql : SetOpType → String
  | .union => " UNION "
  | .unionAll => " UNION ALL "
  | .intersect => " INTERSECT "
  | .except => " EXCEPT "

/-- `word`, or its negation after `NOT`. -/
def notWord (isNot : Bool) (word : String) : Text :=
  lit (if isNot then " NOT " ++ word else " " ++ word)

/-- The quoted columns, or `whenEmpty`. -/
def selectList (d : Dialect) (whenEmpty : String) (columns : List String) : Text :=
  if columns.isEmpty then lit whenEmpty else d.columnList columns

/-- `DISTINCT`, or nothing. -/
def distinctWord (isDistinct : Bool) : Text :=
  lit (if isDistinct then "DISTINCT " else "")

/-- `[DISTINCT] columns FROM table`, the part of a subquery before its condition. -/
def selectFrom (d : Dialect) (whenEmpty : String) (isDistinct : Bool) (columns : List String)
    (tableName : String) : Text :=
  distinctWord isDistinct ++ selectList d whenEmpty columns ++ lit " FROM " ++ d.quoteId tableName

/-- A column, after its table if that is not empty. -/
def columnSql (d : Dialect) (ref : ColumnRef) : Text :=
  if ref.tableName = "" then d.quoteId ref.columnName
  else d.quoteId ref.tableName ++ lit "." ++ d.quoteId ref.columnName

/-! ## Expressions -/

/-- Record a slot, and write the placeholder with its index. -/
def nextPlaceholder (s : ParameterSlot) : Gen Text := do
  let c ← get
  set { c with slots := c.slots ++ [s], paramCounter := c.paramCounter + 1 }
  return placeholder c.paramCounter

/-- Record a value as parameter and as slot. -/
def visitLiteral (v : BoundValue) : Gen Text := do
  modify fun c => { c with params := c.params ++ [v] }
  nextPlaceholder (.static v)

/-- The text of a clause over a list, between `before` and `after`, or `whenEmpty`. -/
def listClause {α : Type*} (whenEmpty before after : Text) (items : List α) (list : Gen Text) :
    Gen Text := do
  let listStr ← list
  return if items.isEmpty then whenEmpty else before ++ listStr ++ after

/-- The call of a window function. `arg` writes its argument, or the given text for none;
the ranking functions have no argument and do not ask for it. -/
def windowCall (arg : String → Gen Text) : WindowFunctionType → Gen Text
  | .rowNumber => return lit "ROW_NUMBER()"
  | .rank => return lit "RANK()"
  | .denseRank => return lit "DENSE_RANK()"
  | .sum => return lit "SUM(" ++ (← arg "") ++ lit ")"
  | .avg => return lit "AVG(" ++ (← arg "") ++ lit ")"
  | .min => return lit "MIN(" ++ (← arg "") ++ lit ")"
  | .max => return lit "MAX(" ++ (← arg "") ++ lit ")"
  | .count => return lit "COUNT(" ++ (← arg "*") ++ lit ")"

mutual

/-- `visit` : the text of a tree, and the slots that it records. -/
def visit (d : Dialect) : ExprNode → Gen Text
  | .columnRef ref => return columnSql d ref
  | .literal value => visitLiteral value
  | .paramPlaceholder index => nextPlaceholder (.dynamic index)
  | .binary left op right => do
    let leftStr ← visit d left
    let rightStr ← visit d right
    return lit "(" ++ leftStr ++ lit op.sql ++ rightStr ++ lit ")"
  | .logic left op right => do
    let leftStr ← visit d left
    let rightStr ← visit d right
    return lit "(" ++ leftStr ++ lit op.sql ++ rightStr ++ lit ")"
  | .unary .not operand => return lit "NOT (" ++ (← visit d operand) ++ lit ")"
  | .unary .isNull operand => return (← visit d operand) ++ lit " IS NULL"
  | .unary .isNotNull operand => return (← visit d operand) ++ lit " IS NOT NULL"
  | .between expr low high isNot => do
    let exprStr ← visit d expr
    let lowStr ← visit d low
    let highStr ← visit d high
    return lit "(" ++ exprStr ++ notWord isNot "BETWEEN " ++ lowStr ++ lit " AND " ++ highStr ++
      lit ")"
  | .like expr pattern isNot => do
    let exprStr ← visit d expr
    let patStr ← visit d pattern
    return lit "(" ++ exprStr ++ notWord isNot "LIKE " ++ patStr ++ lit ")"
  | .inList expr values isNot => do
    let exprStr ← visit d expr
    -- an empty list is decided without the tested expression, whose text is dropped here
    if values.isEmpty then
      return lit (if isNot then "(1 = 1)" else "(1 = 0)")
    let listStr ← visitList d values
    return lit "(" ++ exprStr ++ notWord isNot "IN (" ++ listStr ++ lit "))"
  | .function functionName arguments => do
    let argStr ← visitList d arguments
    return lit (d.functionName functionName) ++ lit "(" ++ argStr ++ lit ")"
  | .subquery ⟨tableName, columns, where_, isDistinct⟩ => do
    let whereStr ← visitOption d " WHERE " "" where_
    return lit "(SELECT " ++ selectFrom d "*" isDistinct columns tableName ++ whereStr ++ lit ")"
  | .existsSub ⟨tableName, columns, where_, isDistinct⟩ isNot => do
    let whereStr ← visitOption d " WHERE " "" where_
    return lit (if isNot then "NOT EXISTS (SELECT " else "EXISTS (SELECT ") ++
      selectFrom d "1" isDistinct columns tableName ++ whereStr ++ lit ")"
  | .inSubquery expr ⟨tableName, columns, where_, isDistinct⟩ isNot => do
    let exprStr ← visit d expr
    let whereStr ← visitOption d " WHERE " "" where_
    return lit "(" ++ exprStr ++ notWord isNot "IN (SELECT " ++
      selectFrom d "*" isDistinct columns tableName ++ whereStr ++ lit "))"
  | .extract part expr => do
    let exprStr ← visit d expr
    return d.extractPartFunc part.sql exprStr
  | .dateAdd expr days => do
    let exprStr ← visit d expr
    let daysStr ← visit d days
    return d.dateAddDaysFunc exprStr daysStr
  | .window func arg partitionClauses orderClauses => do
    let funcStr ← windowCall (fun whenNone => visitOption d "" whenNone arg) func
    let partitionStr ←
      listClause [] (lit "PARTITION BY ") [] partitionClauses (visitList d partitionClauses)
    let orderStr ←
      listClause [] (lit (if partitionClauses.isEmpty then "ORDER BY " else " ORDER BY ")) []
        orderClauses (visitOrderBy d orderClauses)
    return funcStr ++ lit " OVER (" ++ partitionStr ++ orderStr ++ lit ")"
  | .currentTimestamp => return lit d.currentTimestampFunc
  | .currentDate => return lit d.currentDateFunc
termination_by structural e => e

/-- A tree after `before`, or `whenNone`. -/
def visitOption (d : Dialect) (before whenNone : String) : Option ExprNode → Gen Text
  | none => return lit whenNone
  | some e => return lit before ++ (← visit d e)
termination_by structural e => e

/-- Trees separated by commas. -/
def visitList (d : Dialect) : List ExprNode → Gen Text
  | [] => return []
  | [e] => visit d e
  | e :: f :: es => do
    let head ← visit d e
    let tail ← visitList d (f :: es)
    return head ++ lit ", " ++ tail
termination_by structural es => es

/-- Ordering clauses separated by commas. -/
def visitOrderBy (d : Dialect) : List (ExprNode × SortDir) → Gen Text
  | [] => return []
  | [(e, dir)] => return (← visit d e) ++ lit dir.sql
  | (e, dir) :: o :: os => do
    let head ← visit d e
    let tail ← visitOrderBy d (o :: os)
    return head ++ lit dir.sql ++ lit ", " ++ tail
termination_by structural os => os

end

/-! ## Clauses -/

/-- The `WHERE` of a statement. -/
def whereClause (d : Dialect) (where_ : Option ExprNode) : Gen Text :=
  visitOption d " WHERE " "" where_

/-- The `GROUP BY` of a statement. -/
def groupByClause (d : Dialect) (groupBy : List ExprNode) : Gen Text :=
  listClause [] (lit " GROUP BY ") [] groupBy (visitList d groupBy)

/-- The `HAVING` of a statement. -/
def havingClause (d : Dialect) (having : Option ExprNode) : Gen Text :=
  visitOption d " HAVING " "" having

/-- The ordering that paging needs where the query has none : any paging clause with the
word `OFFSET` gets one. -/
def pagingOrder (limit offset : Option ℕ) (paging : String) : Text :=
  if (limit.isSome || offset.isSome) && decide ("OFFSET".toList <:+: paging.toList) then
    lit " ORDER BY (SELECT NULL)"
  else []

/-- The `ORDER BY` of a select, with the filler where only the paging needs one. -/
def orderByClause (d : Dialect) (orderBy : List OrderByExpr) (limit offset : Option ℕ)
    (paging : String) : Gen Text :=
  listClause (pagingOrder limit offset paging) (lit " ORDER BY ") [] orderBy
    (visitOrderBy d orderBy)

/-- The comma before the rest of a list, if there is any. -/
def commaBefore {α : Type*} (rest : List α) : Text :=
  if rest.isEmpty then [] else lit ", "

/-- `WITH name AS (SELECT ...), ...`. -/
def cteList (d : Dialect) : List CteClause → Gen Text
  | [] => return []
  | ⟨name, sub⟩ :: ctes => do
    let whereStr ← whereClause d sub.where_
    let tail ← cteList d ctes
    return d.quoteId name ++ lit " AS (SELECT " ++
      selectFrom d "*" sub.isDistinct sub.selectColumns sub.tableName ++ whereStr ++ lit ")" ++
      commaBefore ctes ++ tail

/-- The `WITH` of a select. -/
def withClause (d : Dialect) (ctes : List CteClause) : Gen Text :=
  listClause [] (lit "WITH ") (lit " ") ctes (cteList d ctes)

/-- The joins of a select. -/
def joinList (d : Dialect) : List JoinClause → Gen Text
  | [] => return []
  | j :: js => do
    let onStr ← visit d j.onCondition
    let tail ← joinList d js
    return lit (" " ++ j.joinType ++ " ") ++ d.quoteId j.tableName ++ lit " ON " ++ onStr ++ tail

/-- The further queries of a set operation. -/
def setOpList (d : Dialect) : List SetOpClause → Gen Text
  | [] => return []
  | op :: ops => do
    let whereStr ← whereClause d op.where_
    let tail ← setOpList d ops
    return lit op.opType.sql ++ lit "SELECT " ++
      selectFrom d "*" op.isDistinct op.columns op.tableName ++ whereStr ++ tail

/-- What a set operation is ordered by : a column goes by its name alone. -/
def setOpOrderKey (d : Dialect) : ExprNode → Gen Text
  | .columnRef ref => return d.quoteId ref.columnName
  | e => visit d e

/-- The `ORDER BY` of a set operation, whose columns have no tables. -/
def setOpOrderBy (d : Dialect) : List OrderByExpr → Gen Text
  | [] => return []
  | (e, dir) :: os => do
    let head ← setOpOrderKey d e
    let tail ← setOpOrderBy d os
    return head ++ lit dir.sql ++ commaBefore os ++ tail

/-- The column an assignment names. One without a name takes the table's for it. -/
def assignedColumn (ref : ColumnRef) : String :=
  if ref.columnName = "" then ref.tableName else ref.columnName

/-- `column = value` for each assignment. -/
def assignmentList (d : Dialect) : List AssignExpr → Gen Text
  | [] => return []
  | a :: as => do
    let valueStr ← visit d a.value
    let tail ← assignmentList d as
    return d.quoteId (assignedColumn a.column) ++ lit " = " ++ valueStr ++ commaBefore as ++
      tail

/-- A placeholder for each value. -/
def valueList : List BoundValue → Gen Text
  | [] => return []
  | v :: vs => do
    let head ← visitLiteral v
    let tail ← valueList vs
    return head ++ commaBefore vs ++ tail

/-- `column = placeholder` for each assigned value. -/
def valueAssignmentList (d : Dialect) : List (String × BoundValue) → Gen Text
  | [] => return []
  | (column, v) :: as => do
    let valueStr ← visitLiteral v
    let tail ← valueAssignmentList d as
    return d.quoteId column ++ lit " = " ++ valueStr ++ commaBefore as ++
      tail

/-! ## Statements -/

/-- Run a generation from an empty context. -/
def GeneratedSql.of (g : Gen Text) : GeneratedSql :=
  let (sql, c) := g (.start 0)
  ⟨sql, c.params, c.slots⟩

/-- `generate_cte_select`. -/
def generateCteSelect (d : Dialect) (ctes : List CteClause) (tableName : String)
    (columns : List String) (where_ : Option ExprNode) (orderBy : List OrderByExpr)
    (limit offset : Option ℕ) (isDistinct : Bool) (groupBy : List ExprNode)
    (having : Option ExprNode) : Except Exn GeneratedSql := do
  let paging ← d.limitOffset limit offset
  return .of do
    let withStr ← withClause d ctes
    let whereStr ← whereClause d where_
    let groupStr ← groupByClause d groupBy
    let havingStr ← havingClause d having
    let orderStr ← orderByClause d orderBy limit offset paging
    return withStr ++ lit "SELECT " ++ lit (d.selectPrefixLimitOffset limit offset) ++
      selectFrom d "*" isDistinct columns tableName ++ whereStr ++ groupStr ++ havingStr ++
      orderStr ++ lit paging

/-- `generate_select`. -/
def generateSelect (d : Dialect) (tableName : String) (columns : List String)
    (where_ : Option ExprNode) (orderBy : List OrderByExpr) (limit offset : Option ℕ)
    (isDistinct : Bool) (groupBy : List ExprNode) (having : Option ExprNode) :
    Except Exn GeneratedSql :=
  generateCteSelect d [] tableName columns where_ orderBy limit offset isDistinct groupBy having

/-- The projection of a join : the columns of every table, after its name. -/
def joinedColumns (d : Dialect) (tables : List (String × List String)) : Text :=
  commaList (tables.flatMap fun t => t.2.map fun c => d.quoteId t.1 ++ lit "." ++ d.quoteId c)

/-- `generate_joined_select`. -/
def generateJoinedSelect (d : Dialect) (primaryTable : String) (primaryColumns : List String)
    (joins : List JoinClause) (joinedTablesColumns : List (String × List String))
    (where_ : Option ExprNode) (orderBy : List OrderByExpr) (limit offset : Option ℕ)
    (isDistinct : Bool) : Except Exn GeneratedSql := do
  let paging ← d.limitOffset limit offset
  return .of do
    let joinStr ← joinList d joins
    let whereStr ← whereClause d where_
    let orderStr ← orderByClause d orderBy limit offset paging
    return lit "SELECT " ++ lit (d.selectPrefixLimitOffset limit offset) ++
      distinctWord isDistinct ++
      joinedColumns d ((primaryTable, primaryColumns) :: joinedTablesColumns) ++
      lit " FROM " ++ d.quoteId primaryTable ++ joinStr ++ whereStr ++ orderStr ++ lit paging

/-- `generate_joined_count`. -/
def generateJoinedCount (d : Dialect) (primaryTable : String) (joins : List JoinClause)
    (where_ : Option ExprNode) : GeneratedSql :=
  .of do
    let joinStr ← joinList d joins
    let whereStr ← whereClause d where_
    return lit "SELECT COUNT(*) FROM " ++ d.quoteId primaryTable ++ joinStr ++ whereStr

/-- `generate_set_operation`. -/
def generateSetOperation (d : Dialect) (baseTable : String) (baseColumns : List String)
    (baseWhere : Option ExprNode) (baseDistinct : Bool) (operations : List SetOpClause)
    (orderBy : List OrderByExpr) (limit offset : Option ℕ) : Except Exn GeneratedSql := do
  let paging ← d.limitOffset limit offset
  return .of do
    let whereStr ← whereClause d baseWhere
    let opStr ← setOpList d operations
    let orderStr ← listClause (pagingOrder limit offset paging) (lit " ORDER BY ") [] orderBy
      (setOpOrderBy d orderBy)
    return lit "SELECT " ++ lit (d.selectPrefixLimitOffset limit offset) ++
      selectFrom d "*" baseDistinct baseColumns baseTable ++ whereStr ++ opStr ++ orderStr ++
      lit paging

/-- `generate_set_operation_count`. -/
def generateSetOperationCount (d : Dialect) (baseTable : String) (baseColumns : List String)
    (baseWhere : Option ExprNode) (baseDistinct : Bool) (operations : List SetOpClause) :
    Except Exn GeneratedSql := do
  let sub ← generateSetOperation d baseTable baseColumns baseWhere baseDistinct operations [] none
    none
  return { sub with
    sql := lit "SELECT COUNT(*) FROM (" ++ sub.sql ++ lit ") " ++ d.quoteId "_sub" }

/-- The clause `clause` of a named column. -/
def onNamedColumn (clause : String → Text) : Option String → Text
  | some column => if column = "" then [] else clause column
  | none => []

/-- The values of an insert. Without columns none is written. -/
def insertValues (columnNames : List String) (values : List BoundValue) : Gen Text :=
  if columnNames.isEmpty then pure (lit " DEFAULT VALUES")
  else do
    let list ← valueList values
    return lit " VALUES (" ++ list ++ lit ")"

/-- `generate_insert`. -/
def generateInsert (d : Dialect) (tableName : String) (columnNames : List String)
    (values : List BoundValue) (returningColumn : Option String) : GeneratedSql :=
  .of do
    let valuesStr ← insertValues columnNames values
    return lit "INSERT INTO " ++ d.quoteId tableName ++
      (if columnNames.isEmpty then [] else lit " (" ++ d.columnList columnNames ++ lit ")") ++
      onNamedColumn d.outputClause returningColumn ++ valuesStr ++
      onNamedColumn d.returningClause returningColumn

/-- `generate_upsert`. -/
def generateUpsert (d : Dialect) (tableName : String) (insertColumns : List String)
    (values : List BoundValue) (conflictColumns updateColumns : List String) :
    Except Exn GeneratedSql := do
  let sql ← d.generateUpsert tableName insertColumns values conflictColumns updateColumns
  return ⟨sql, values, values.map .static⟩

/-- `generate_update`, of expressions. -/
def generateUpdate (d : Dialect) (tableName : String) (assignments : List AssignExpr)
    (where_ : Option ExprNode) : GeneratedSql :=
  .of do
    let setStr ← assignmentList d assignments
    let whereStr ← whereClause d where_
    return lit "UPDATE " ++ d.quoteId tableName ++ lit " SET " ++ setStr ++ whereStr

/-- `generate_update` for values already bound. -/
def generateUpdateValues (d : Dialect) (tableName : String)
    (assignments : List (String × BoundValue)) (where_ : Option ExprNode) : GeneratedSql :=
  .of do
    let setStr ← valueAssignmentList d assignments
    let whereStr ← whereClause d where_
    return lit "UPDATE " ++ d.quoteId tableName ++ lit " SET " ++ setStr ++ whereStr

/-- `generate_delete`. -/
def generateDelete (d : Dialect) (tableName : String) (where_ : Option ExprNode) : GeneratedSql :=
  .of do
    let whereStr ← whereClause d where_
    return lit "DELETE FROM " ++ d.quoteId tableName ++ whereStr

/-- `generate_count`. -/
def generateCount (d : Dialect) (tableName : String) (where_ : Option ExprNode)
    (isDistinct : Bool) (distinctColumn : Option String) : GeneratedSql :=
  .of do
    let whereStr ← whereClause d where_
    let counted := match isDistinct, distinctColumn with
      | true, some column => lit "DISTINCT " ++ d.quoteId column
      | _, _ => lit "*"
    return lit "SELECT COUNT(" ++ counted ++ lit ") FROM " ++ d.quoteId tableName ++ whereStr

/-- `generate_aggregate`. -/
def generateAggregate (d : Dialect) (func tableName columnName : String)
    (where_ : Option ExprNode) : GeneratedSql :=
  .of do
    let whereStr ← whereClause d where_
    return lit "SELECT " ++ lit (d.functionName func) ++ lit "(" ++
      (if columnName = "*" then lit "*" else d.quoteId columnName) ++ lit ") FROM " ++
      d.quoteId tableName ++ whereStr

/-- `generate_expression`. -/
def generateExpression (d : Dialect) (node : ExprNode) : GeneratedSql :=
  .of (visit d node)

/-- A call of one of the generator's functions. -/
inductive GenerateCall
  | cteSelect (ctes : List CteClause) (tableName : String) (columns : List String)
      (where_ : Option ExprNode) (orderBy : List OrderByExpr) (limit offset : Option ℕ)
      (isDistinct : Bool) (groupBy : List ExprNode) (having : Option ExprNode)
  | select (tableName : String) (columns : List String) (where_ : Option ExprNode)
      (orderBy : List OrderByExpr) (limit offset : Option ℕ) (isDistinct : Bool)
      (groupBy : List ExprNode) (having : Option ExprNode)
  | joinedSelect (primaryTable : String) (primaryColumns : List String)
      (joins : List JoinClause) (joinedTablesColumns : List (String × List String))
      (where_ : Option ExprNode) (orderBy : List OrderByExpr) (limit offset : Option ℕ)
      (isDistinct : Bool)
  | joinedCount (primaryTable : String) (joins : List JoinClause) (where_ : Option ExprNode)
  | setOperation (baseTable : String) (baseColumns : List String) (baseWhere : Option ExprNode)
      (baseDistinct : Bool) (operations : List SetOpClause) (orderBy : List OrderByExpr)
      (limit offset : Option ℕ)
  | setOperationCount (baseTable : String) (baseColumns : List String)
      (baseWhere : Option ExprNode) (baseDistinct : Bool) (operations : List SetOpClause)
  | insert (tableName : String) (columnNames : List String) (values : List BoundValue)
      (returningColumn : Option String)
  | upsert (tableName : String) (insertColumns : List String) (values : List BoundValue)
      (conflictColumns updateColumns : List String)
  | update (tableName : String) (assignments : List AssignExpr) (where_ : Option ExprNode)
  | updateValues (tableName : String) (assignments : List (String × BoundValue))
      (where_ : Option ExprNode)
  | delete (tableName : String) (where_ : Option ExprNode)
  | count (tableName : String) (where_ : Option ExprNode) (isDistinct : Bool)
      (distinctColumn : Option String)
  | aggregate (func tableName columnName : String) (where_ : Option ExprNode)
  | expression (node : ExprNode)

/-- The result of a call, or what it throws. -/
def generate (d : Dialect) : GenerateCall → Except Exn GeneratedSql
  | .cteSelect ctes table cols w order limit offset distinct group having =>
    generateCteSelect d ctes table cols w order limit offset distinct group having
  | .select table cols w order limit offset distinct group having =>
    generateSelect d table cols w order limit offset distinct group having
  | .joinedSelect table cols joins joined w order limit offset distinct =>
    generateJoinedSelect d table cols joins joined w order limit offset distinct
  | .joinedCount table joins w => .ok (generateJoinedCount d table joins w)
  | .setOperation table cols w distinct ops order limit offset =>
    generateSetOperation d table cols w distinct ops order limit offset
  | .setOperationCount table cols w distinct ops =>
    generateSetOperationCount d table cols w distinct ops
  | .insert table cols values returning => .ok (generateInsert d table cols values returning)
  | .upsert table ins values conflict upd => generateUpsert d table ins values conflict upd
  | .update table assignments w => .ok (generateUpdate d table assignments w)
  | .updateValues table assignments w => .ok (generateUpdateValues d table assignments w)
  | .delete table w => .ok (generateDelete d table w)
  | .count table w distinct column => .ok (generateCount d table w distinct column)
  | .aggregate func table column w => .ok (generateAggregate d func table column w)
  | .expression node => .ok (generateExpression d node)

end CppLinq
