import CppLinq.Session
import CppLinq.StatementTrees

/-!
# Query builders

The states of the four builders of `core/query_builder.h`, and the statements their
terminals generate. A builder's columns are given by name.
-/

namespace CppLinq

/-- The state of a `QueryBuilder`. -/
structure QueryBuilder where
  tableName : String
  columns : List String
  where_ : Option ExprNode := none
  orderClauses : List OrderByExpr := []
  limit : Option ℕ := none
  offset : Option ℕ := none
  isDistinct : Bool := false
  groupByClauses : List ExprNode := []
  having : Option ExprNode := none
  ctes : List CteClause := []

/-- `JoinType`. -/
inductive JoinType
  | inner | left
  deriving DecidableEq, Repr

/-- The words of a join. -/
def JoinType.sql : JoinType → String
  | .inner => "INNER JOIN"
  | .left => "LEFT JOIN"

/-- The state of a `JoinedQueryBuilder`. -/
structure JoinedQueryBuilder where
  joinType : JoinType
  primaryTable : String
  primaryCols : List String
  joinedTable : String
  joinedCols : List String
  onCond : ExprNode
  where_ : Option ExprNode := none
  orderClauses : List OrderByExpr := []
  limit : Option ℕ := none
  offset : Option ℕ := none

/-- The state of a `Joined3QueryBuilder`. -/
structure Joined3QueryBuilder where
  joinType1 : JoinType
  joinType2 : JoinType
  primaryTable : String
  primaryCols : List String
  joinedTable2 : String
  joinedCols2 : List String
  onCond2 : ExprNode
  joinedTable3 : String
  joinedCols3 : List String
  onCond3 : ExprNode
  where_ : Option ExprNode := none
  orderClauses : List OrderByExpr := []
  limit : Option ℕ := none
  offset : Option ℕ := none

/-- The state of a `SetOpQueryBuilder`. -/
structure SetOpQueryBuilder where
  baseTable : String
  columns : List String
  baseWhere : Option ExprNode := none
  baseDistinct : Bool := false
  ops : List SetOpClause := []
  orderClauses : List OrderByExpr := []
  limit : Option ℕ := none
  offset : Option ℕ := none

namespace QueryBuilder

/-- The query of `to_list`, `stream` and `prepare`. -/
def selectCall (q : QueryBuilder) : GenerateCall :=
  if q.ctes.isEmpty then
    .select q.tableName q.columns q.where_ q.orderClauses q.limit q.offset q.isDistinct
      q.groupByClauses q.having
  else
    .cteSelect q.ctes q.tableName q.columns q.where_ q.orderClauses q.limit q.offset
      q.isDistinct q.groupByClauses q.having

theorem selectCall_hasTrees (q : QueryBuilder) : q.selectCall.HasTrees := by
  unfold selectCall
  split <;> trivial

/-- The query of `exists` : one column and one row, without the common table expressions. -/
def existsCall (q : QueryBuilder) : GenerateCall :=
  .select q.tableName [q.columns.headD "1"] q.where_ q.orderClauses (some 1) none false
    q.groupByClauses q.having

/-- What `count` asks for. -/
def countCall (q : QueryBuilder) : GenerateCall :=
  .count q.tableName q.where_ false none

/-- The column named by the argument of a terminal, which throws without one. -/
def columnNameOf (terminal : String) : ExprNode → Except Exn String
  | .columnRef ref =>
    if ref.columnName = "" then
      .error (.dbException ("Column name cannot be empty for " ++ terminal))
    else .ok ref.columnName
  | _ => .error (.dbException ("Column name cannot be empty for " ++ terminal))

/-- What `count_distinct` asks for, of a column. -/
def countDistinctCall (q : QueryBuilder) (column : ExprNode) : Except Exn GenerateCall := do
  let name ← columnNameOf "count_distinct" column
  return .count q.tableName q.where_ true (some name)

/-- `aggregate_impl`, behind `avg`, `sum`, `min_val` and `max_val`. -/
def aggregateCall (q : QueryBuilder) (funcName : String) (column : ExprNode) :
    Except Exn GenerateCall := do
  let name ← columnNameOf funcName column
  return .aggregate funcName q.tableName name q.where_

/-- What `update` asks for. -/
def updateCall (q : QueryBuilder) (assignments : List AssignExpr) : GenerateCall :=
  .update q.tableName assignments q.where_

/-- What `remove` asks for. -/
def removeCall (q : QueryBuilder) : GenerateCall :=
  .delete q.tableName q.where_

end QueryBuilder

namespace JoinedQueryBuilder

/-- The join of two tables. -/
def joins (q : JoinedQueryBuilder) : List JoinClause :=
  [⟨q.joinType.sql, q.joinedTable, q.onCond⟩]

/-- What `to_list` of a join asks for. -/
def selectCall (q : JoinedQueryBuilder) : GenerateCall :=
  .joinedSelect q.primaryTable q.primaryCols q.joins [(q.joinedTable, q.joinedCols)] q.where_
    q.orderClauses q.limit q.offset false

/-- What `count` of a join asks for. -/
def countCall (q : JoinedQueryBuilder) : GenerateCall :=
  .joinedCount q.primaryTable q.joins q.where_

end JoinedQueryBuilder

namespace Joined3QueryBuilder

/-- The joins of three tables. -/
def joins (q : Joined3QueryBuilder) : List JoinClause :=
  [⟨q.joinType1.sql, q.joinedTable2, q.onCond2⟩, ⟨q.joinType2.sql, q.joinedTable3, q.onCond3⟩]

/-- What `to_list` of three tables asks for. -/
def selectCall (q : Joined3QueryBuilder) : GenerateCall :=
  .joinedSelect q.primaryTable q.primaryCols q.joins
    [(q.joinedTable2, q.joinedCols2), (q.joinedTable3, q.joinedCols3)] q.where_ q.orderClauses
    q.limit q.offset false

/-- What `count` of three tables asks for. -/
def countCall (q : Joined3QueryBuilder) : GenerateCall :=
  .joinedCount q.primaryTable q.joins q.where_

end Joined3QueryBuilder

namespace SetOpQueryBuilder

/-- What `to_list` of a set operation asks for. -/
def selectCall (q : SetOpQueryBuilder) : GenerateCall :=
  .setOperation q.baseTable q.columns q.baseWhere q.baseDistinct q.ops q.orderClauses q.limit
    q.offset

/-- What `count` of a set operation asks for. -/
def countCall (q : SetOpQueryBuilder) : GenerateCall :=
  .setOperationCount q.baseTable q.columns q.baseWhere q.baseDistinct q.ops

end SetOpQueryBuilder

end CppLinq
