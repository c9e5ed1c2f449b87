import CppLinq.Terminals
import Mathlib.Data.List.DropRight

/-!
# Building queries

The methods of the builders of `core/query_builder.h` : what each does to the state of its
builder, and which part of a builder goes on into a join, a set operation or a subquery. The
terminal `first` changes the limit of its builder and a `LimitGuard` puts it back, also when
the query throws.

A builder is used by calls and terminals in any order (`BuilderStep`). The terminals leave no
trace : each runs on the builder that the calls before it have made (`useBuilder_eq`). What the
calls leave of each clause is said by `conditions`, `ordering` and `built`
(`applyAll_fresh`).
-/

namespace CppLinq

/-! ## The methods -/

/-- `where` of the builders : a further condition is the right side of an `AND`. -/
def addCondition (where_ : Option ExprNode) (condition : ExprNode) : Option ExprNode :=
  match where_ with
  | some w => some (.logic w .and condition)
  | none => some condition

/-- A method of a `QueryBuilder` that returns the builder. -/
inductive BuilderCall
  | distinct
  | where_ (condition : ExprNode)
  | orderBy (column : ExprNode) (dir : SortDir)
  | thenBy (column : ExprNode) (dir : SortDir)
  | groupBy (first : ExprNode) (rest : List ExprNode)
  | having (condition : ExprNode)
  | withCte (name : String) (subquery : SubqueryExpr)
  | limit (n : ℕ)
  | offset (n : ℕ)

/-- A method of a `JoinedQueryBuilder` or a `Joined3QueryBuilder`. -/
inductive JoinedCall
  | where_ (condition : ExprNode)
  | orderBy (column : ExprNode) (dir : SortDir)
  | thenBy (column : ExprNode) (dir : SortDir)
  | limit (n : ℕ)
  | offset (n : ℕ)

namespace QueryBuilder

/-- A builder of a table. -/
def fresh (tableName : String) (columns : List String) : QueryBuilder where
  tableName := tableName
  columns := columns

/-- A method of a `QueryBuilder`. -/
def apply (q : QueryBuilder) : BuilderCall → QueryBuilder
  | .distinct => { q with isDistinct := true }
  | .where_ condition => { q with where_ := addCondition q.where_ condition }
  | .orderBy column dir => { q with orderClauses := [(column, dir)] }
  | .thenBy column dir => { q with orderClauses := q.orderClauses ++ [(column, dir)] }
  | .groupBy first rest => { q with groupByClauses := q.groupByClauses ++ first :: rest }
  | .having condition => { q with having := some condition }
  | .withCte name subquery => { q with ctes := q.ctes ++ [⟨name, subquery⟩] }
  | .limit n => { q with limit := some n }
  | .offset n => { q with offset := some n }

/-- Methods, one after another. -/
def applyAll (q : QueryBuilder) (calls : List BuilderCall) : QueryBuilder :=
  calls.foldl apply q

/-- `make_joined` : the condition goes on into the join, and nothing else. -/
def makeJoined (q : QueryBuilder) (type : JoinType) (table : String) (columns : List String)
    (condition : ExprNode) : JoinedQueryBuilder where
  joinType := type
  primaryTable := q.tableName
  primaryCols := q.columns
  joinedTable := table
  joinedCols := columns
  onCond := condition
  where_ := q.where_

/-- A builder on the right of a set operation. -/
def setOpClause (q : QueryBuilder) (type : SetOpType) : SetOpClause :=
  ⟨type, q.tableName, q.columns, q.where_, q.isDistinct⟩

/-- `union_with`, `union_all`, `intersect` and `except_from`. -/
def setOp (q : QueryBuilder) (type : SetOpType) (other : QueryBuilder) : SetOpQueryBuilder where
  baseTable := q.tableName
  columns := q.columns
  baseWhere := q.where_
  baseDistinct := q.isDistinct
  ops := [other.setOpClause type]

/-- `as_subquery`, of all columns or of one. -/
def asSubquery (q : QueryBuilder) (column : Option String) : SubqueryExpr where
  tableName := q.tableName
  selectColumns := column.elim q.columns fun c => [c]
  where_ := q.where_
  isDistinct := q.isDistinct

end QueryBuilder

namespace JoinedQueryBuilder

/-- A method of a `JoinedQueryBuilder`. -/
def apply (q : JoinedQueryBuilder) : JoinedCall → JoinedQueryBuilder
  | .where_ condition => { q with where_ := addCondition q.where_ condition }
  | .orderBy column dir => { q with orderClauses := [(column, dir)] }
  | .thenBy column dir => { q with orderClauses := q.orderClauses ++ [(column, dir)] }
  | .limit n => { q with limit := some n }
  | .offset n => { q with offset := some n }

/-- Methods, one after another. -/
def applyAll (q : JoinedQueryBuilder) (calls : List JoinedCall) : JoinedQueryBuilder :=
  calls.foldl apply q

/-- `make_joined_3`, which drops ordering and paging like `make_joined`. -/
def makeJoined3 (q : JoinedQueryBuilder) (type : JoinType) (table : String)
    (columns : List String) (condition : ExprNode) : Joined3QueryBuilder where
  joinType1 := q.joinType
  joinType2 := type
  primaryTable := q.primaryTable
  primaryCols := q.primaryCols
  joinedTable2 := q.joinedTable
  joinedCols2 := q.joinedCols
  onCond2 := q.onCond
  joinedTable3 := table
  joinedCols3 := columns
  onCond3 := condition
  where_ := q.where_

end JoinedQueryBuilder

namespace Joined3QueryBuilder

/-- A method of a `Joined3QueryBuilder`. -/
def apply (q : Joined3QueryBuilder) : JoinedCall → Joined3QueryBuilder
  | .where_ condition => { q with where_ := addCondition q.where_ condition }
  | .orderBy column dir => { q with orderClauses := [(column, dir)] }
  | .thenBy column dir => { q with orderClauses := q.orderClauses ++ [(column, dir)] }
  | .limit n => { q with limit := some n }
  | .offset n => { q with offset := some n }

/-- Methods, one after another. -/
def applyAll (q : Joined3QueryBuilder) (calls : List JoinedCall) : Joined3QueryBuilder :=
  calls.foldl apply q

end Joined3QueryBuilder

/-! ## Terminals of a builder -/

/-- A terminal of a `QueryBuilder`, without the builder. -/
inductive QueryTerminal
  | toList
  | stream (options : ExecutionOptions)
  | first
  | count
  | countDistinct (column : ExprNode)
  | avg (column : ExprNode)
  | sum (column : ExprNode)
  | minVal (column : ExprNode)
  | maxVal (column : ExprNode)
  | exists
  | update (assignments : List AssignExpr)
  | remove

/-- The terminal of a given builder. -/
def QueryTerminal.on (q : QueryBuilder) : QueryTerminal → Terminal
  | .toList => .toList q
  | .stream options => .stream q options
  | .first => .first q
  | .count => .count q
  | .countDistinct column => .countDistinct q column
  | .avg column => .avg q column
  | .sum column => .sum q column
  | .minVal column => .minVal q column
  | .maxVal column => .maxVal q column
  | .exists => .exists q
  | .update assignments => .update q assignments
  | .remove => .remove q

/-- How a terminal ended. -/
abbrev TerminalEnd := Except Exn Unit

/-- A builder and the calls made so far. -/
abbrev BuilderState := QueryBuilder × List DriverCall

section Running

variable (driver : Driver) (d : Dialect)

/-- A terminal that only reads its builder. -/
def runTerminal (t : QueryTerminal) (s : BuilderState) : TerminalEnd × BuilderState :=
  let r := (t.on s.1).run driver d s.2
  (r.1, s.1, r.2)

/-- `first` : the limit is 1 while `to_list` runs, and the guard puts the old one back
whether or not it throws. -/
def runFirst (s : BuilderState) : TerminalEnd × BuilderState :=
  let saved := s.1.limit
  let r := runTerminal driver d .toList ({ s.1 with limit := some 1 }, s.2)
  (r.1, { r.2.1 with limit := saved }, r.2.2)

/-- A use of a builder : a method call, or a terminal whose exception is caught. -/
inductive BuilderStep
  | call (c : BuilderCall)
  | terminal (t : QueryTerminal)

/-- Use a builder, and collect how its terminals ended. -/
def useBuilder : List BuilderStep → BuilderState → List TerminalEnd × BuilderState
  | [], s => ([], s)
  | .call c :: steps, s => useBuilder steps (s.1.apply c, s.2)
  | .terminal .first :: steps, s =>
    let r := runFirst driver d s
    let rest := useBuilder steps r.2
    (r.1 :: rest.1, rest.2)
  | .terminal t :: steps, s =>
    let r := runTerminal driver d t s
    let rest := useBuilder steps r.2
    (r.1 :: rest.1, rest.2)

/-- Run terminals one after another, whether or not they throw. -/
def runTerminals : List Terminal → List DriverCall → List TerminalEnd × List DriverCall
  | [], log => ([], log)
  | t :: ts, log =>
    let r := t.run driver d log
    let rest := runTerminals ts r.2
    (r.1 :: rest.1, rest.2)

end Running

/-- The method calls among the uses of a builder. -/
def builderCalls : List BuilderStep → List BuilderCall
  | [] => []
  | .call c :: steps => c :: builderCalls steps
  | .terminal _ :: steps => builderCalls steps

/-- The terminals among the uses of a builder, each of the builder that the method calls
before it make. -/
def terminalsOf (q : QueryBuilder) : List BuilderStep → List Terminal
  | [] => []
  | .call c :: steps => terminalsOf (q.apply c) steps
  | .terminal t :: steps => t.on q :: terminalsOf q steps

section Running

variable {driver : Driver} {d : Dialect}

/-- `first` is the terminal with the limit 1, and leaves the builder as it was. -/
theorem runFirst_eq (s : BuilderState) :
    runFirst driver d s = runTerminal driver d .first s := by
  obtain ⟨q, log⟩ := s
  have hrun : (Terminal.toList { q with limit := some 1 }).run driver d log =
      (Terminal.first q).run driver d log := rfl
  unfold runFirst runTerminal
  simp only [QueryTerminal.on, hrun]

theorem useBuilder_terminal (t : QueryTerminal) (steps : List BuilderStep) (s : BuilderState) :
    useBuilder driver d (.terminal t :: steps) s =
      let r := runTerminal driver d t s
      let rest := useBuilder driver d steps r.2
      (r.1 :: rest.1, rest.2) := by
  cases t with
  | first => rw [useBuilder, runFirst_eq]
  | _ => rfl

/-- The terminals leave no trace in the builder, and run as if each had a builder of its
own, made by the method calls before it. -/
theorem useBuilder_eq (steps : List BuilderStep) (q : QueryBuilder) (log : List DriverCall) :
    useBuilder driver d steps (q, log) =
      ((runTerminals driver d (terminalsOf q steps) log).1,
        q.applyAll (builderCalls steps),
        (runTerminals driver d (terminalsOf q steps) log).2) := by
  induction steps generalizing q log with
  | nil => rfl
  | cons step steps ih =>
    cases step with
    | call c => exact ih (q.apply c) log
    | terminal t =>
      rw [useBuilder_terminal]
      simp only [runTerminal]
      rw [ih q ((t.on q).run driver d log).2]
      rfl

end Running

/-! ## What the method calls leave -/

namespace BuilderCall

/-- The condition of a `where`. -/
def condition? : BuilderCall → Option ExprNode
  | .where_ condition => some condition
  | _ => none

/-- The term of an `order_by`. -/
def orderBy? : BuilderCall → Option OrderByExpr
  | .orderBy column dir => some (column, dir)
  | _ => none

/-- The term of a `then_by`. -/
def thenBy? : BuilderCall → Option OrderByExpr
  | .thenBy column dir => some (column, dir)
  | _ => none

/-- The condition of a `having`. -/
def having? : BuilderCall → Option ExprNode
  | .having condition => some condition
  | _ => none

/-- The common table expression of a `with`. -/
def cte? : BuilderCall → Option CteClause
  | .withCte name subquery => some ⟨name, subquery⟩
  | _ => none

/-- The number of a `limit`. -/
def limit? : BuilderCall → Option ℕ
  | .limit n => some n
  | _ => none

/-- The number of an `offset`. -/
def offset? : BuilderCall → Option ℕ
  | .offset n => some n
  | _ => none

/-- The call is `distinct`. -/
def isDistinct : BuilderCall → Bool
  | .distinct => true
  | _ => false

/-- The columns a call groups by. -/
def groups : BuilderCall → List ExprNode
  | .groupBy first rest => first :: rest
  | _ => []

end BuilderCall

/-- All conditions of `where`. -/
def conditions (calls : List BuilderCall) : List ExprNode :=
  calls.filterMap BuilderCall.condition?

/-- The conditions as one : `((c₀ AND c₁) AND c₂) …`. -/
def conjunction : List ExprNode → Option ExprNode
  | [] => none
  | c :: cs => some (cs.foldl (fun w c => .logic w .and c) c)

/-- The last `order_by`, and every `then_by` after it. -/
def ordering (calls : List BuilderCall) : List OrderByExpr :=
  (calls.filterMap BuilderCall.orderBy?).getLast?.toList ++
    (calls.rtakeWhile (·.orderBy?.isNone)).filterMap BuilderCall.thenBy?

/-- The builder that the calls leave : all conditions, the ordering since the last
`order_by`, the last limit, offset and `having`, and every group and common table
expression. -/
def built (tableName : String) (columns : List String) (calls : List BuilderCall) :
    QueryBuilder where
  tableName := tableName
  columns := columns
  where_ := conjunction (conditions calls)
  orderClauses := ordering calls
  limit := (calls.filterMap BuilderCall.limit?).getLast?
  offset := (calls.filterMap BuilderCall.offset?).getLast?
  isDistinct := calls.any BuilderCall.isDistinct
  groupByClauses := calls.flatMap BuilderCall.groups
  having := (calls.filterMap BuilderCall.having?).getLast?
  ctes := calls.filterMap BuilderCall.cte?

section Built

variable {calls : List BuilderCall} {c : BuilderCall}

theorem conjunction_concat (cs : List ExprNode) (c : ExprNode) :
    conjunction (cs ++ [c]) = addCondition (conjunction cs) c := by
  cases cs with
  | nil => rfl
  | cons c' cs => simp [conjunction, addCondition]

theorem conditions_concat (calls : List BuilderCall) (c : BuilderCall) :
    conditions (calls ++ [c]) = conditions calls ++ c.condition?.toList := by
  unfold conditions
  rw [List.filterMap_append]
  cases h : c.condition? <;> simp [h]

theorem ordering_concat (calls : List BuilderCall) (c : BuilderCall) :
    ordering (calls ++ [c]) =
      match c.orderBy? with
      | some clause => [clause]
      | none => ordering calls ++ c.thenBy?.toList := by
  unfold ordering
  cases h : c.orderBy? with
  | some clause =>
    have hstop : (calls ++ [c]).rtakeWhile (·.orderBy?.isNone) = [] :=
      List.rtakeWhile_concat_neg _ _ _ (by simp [h])
    rw [hstop, List.filterMap_append, List.filterMap_cons_some h]
    simp
  | none =>
    have hgo : (calls ++ [c]).rtakeWhile (·.orderBy?.isNone) =
        calls.rtakeWhile (·.orderBy?.isNone) ++ [c] :=
      List.rtakeWhile_concat_pos _ _ _ (by simp [h])
    rw [hgo, List.filterMap_append, List.filterMap_append, List.filterMap_cons_none h]
    cases hthen : c.thenBy? <;> simp [hthen]

/-- One more call. -/
theorem built_concat (tableName : String) (columns : List String) (calls : List BuilderCall)
    (c : BuilderCall) : built tableName columns (calls ++ [c]) =
      (built tableName columns calls).apply c := by
  unfold built QueryBuilder.apply
  rw [ordering_concat, conditions_concat]
  cases c with
  | where_ condition =>
    simp [conjunction_concat, BuilderCall.condition?, BuilderCall.orderBy?,
      BuilderCall.thenBy?, BuilderCall.limit?, BuilderCall.offset?, BuilderCall.isDistinct,
      BuilderCall.groups, BuilderCall.having?, BuilderCall.cte?]
  | _ =>
    simp [BuilderCall.condition?, BuilderCall.orderBy?, BuilderCall.thenBy?,
      BuilderCall.limit?, BuilderCall.offset?, BuilderCall.isDistinct, BuilderCall.groups,
      BuilderCall.having?, BuilderCall.cte?]

/-- What any calls leave of each clause. -/
theorem applyAll_fresh (tableName : String) (columns : List String) (calls : List BuilderCall) :
    (QueryBuilder.fresh tableName columns).applyAll calls = built tableName columns calls := by
  induction calls using List.reverseRecOn with
  | nil => rfl
  | append_singleton calls c ih =>
    rw [built_concat, ← ih, QueryBuilder.applyAll, List.foldl_concat]
    rfl

end Built

/-- However a builder is used, its terminals run as if each had a builder of its own, made by
the calls before it. In the end it has all conditions, the ordering since the last `order_by`,
the last limit, offset and `having`, all groups and common table expressions, and is distinct
if a call has asked for it. -/
theorem builder_after_steps (driver : Driver) (d : Dialect) (tableName : String)
    (columns : List String) (steps : List BuilderStep) (log : List DriverCall) :
    let calls := builderCalls steps
    let end_ := useBuilder driver d steps (.fresh tableName columns, log)
    (end_.1, end_.2.2) =
        runTerminals driver d (terminalsOf (.fresh tableName columns) steps) log ∧
      end_.2.1 = ⟨tableName, columns, conjunction (conditions calls), ordering calls,
        (calls.filterMap BuilderCall.limit?).getLast?,
        (calls.filterMap BuilderCall.offset?).getLast?, calls.any BuilderCall.isDistinct,
        calls.flatMap BuilderCall.groups, (calls.filterMap BuilderCall.having?).getLast?,
        calls.filterMap BuilderCall.cte?⟩ := by
  intro calls end_
  have hend : end_ = _ := useBuilder_eq steps (.fresh tableName columns) log
  rw [hend]
  exact ⟨rfl, applyAll_fresh tableName columns calls⟩

/-! ## What goes on into a join -/

/-- The same method of a `QueryBuilder`. -/
def JoinedCall.call : JoinedCall → BuilderCall
  | .where_ condition => .where_ condition
  | .orderBy column dir => .orderBy column dir
  | .thenBy column dir => .thenBy column dir
  | .limit n => .limit n
  | .offset n => .offset n

section Joins

variable {cs : List ExprNode}

/-- One more call leaves of the four clauses that a join has what it leaves of them in a
query. -/
theorem built_concat_clauses (cs : List ExprNode) (calls : List BuilderCall) (c : JoinedCall) :
    conjunction (cs ++ conditions (calls ++ [c.call])) =
        (match c with
          | .where_ condition => addCondition (conjunction (cs ++ conditions calls)) condition
          | _ => conjunction (cs ++ conditions calls)) ∧
      ordering (calls ++ [c.call]) =
        (match c with
          | .orderBy column dir => [(column, dir)]
          | .thenBy column dir => ordering calls ++ [(column, dir)]
          | _ => ordering calls) ∧
      ((calls ++ [c.call]).filterMap BuilderCall.limit?).getLast? =
        (match c with
          | .limit n => some n
          | _ => (calls.filterMap BuilderCall.limit?).getLast?) ∧
      ((calls ++ [c.call]).filterMap BuilderCall.offset?).getLast? =
        (match c with
          | .offset n => some n
          | _ => (calls.filterMap BuilderCall.offset?).getLast?) := by
  rw [conditions_concat, ordering_concat, ← List.append_assoc]
  cases c with
  | where_ condition =>
    simp [-List.append_assoc, JoinedCall.call, conjunction_concat, BuilderCall.condition?,
      BuilderCall.orderBy?, BuilderCall.thenBy?, BuilderCall.limit?, BuilderCall.offset?]
  | _ =>
    simp [JoinedCall.call, BuilderCall.condition?, BuilderCall.orderBy?, BuilderCall.thenBy?,
      BuilderCall.limit?, BuilderCall.offset?]

/-- What calls leave of a join that has a condition and nothing else. -/
theorem JoinedQueryBuilder.applyAll_eq {q : JoinedQueryBuilder} (hwhere : q.where_ = conjunction cs)
    (horder : q.orderClauses = []) (hlimit : q.limit = none) (hoffset : q.offset = none)
    (calls : List JoinedCall) : q.applyAll calls =
      { q with
        where_ := conjunction (cs ++ conditions (calls.map JoinedCall.call))
        orderClauses := ordering (calls.map JoinedCall.call)
        limit := ((calls.map JoinedCall.call).filterMap BuilderCall.limit?).getLast?
        offset := ((calls.map JoinedCall.call).filterMap BuilderCall.offset?).getLast? } := by
  induction calls using List.reverseRecOn with
  | nil =>
    obtain ⟨⟩ := q
    simp_all [applyAll, conditions, ordering]
  | append_singleton calls c ih =>
    obtain ⟨hcond, hord, hlim, hoff⟩ :=
      built_concat_clauses cs (calls.map JoinedCall.call) c
    rw [List.map_append, List.map_singleton, hcond, hord, hlim, hoff, applyAll,
      List.foldl_concat, ← applyAll, ih]
    cases c <;> rfl

theorem Joined3QueryBuilder.applyAll_eq {q : Joined3QueryBuilder}
    (hwhere : q.where_ = conjunction cs) (horder : q.orderClauses = []) (hlimit : q.limit = none)
    (hoffset : q.offset = none) (calls : List JoinedCall) : q.applyAll calls =
      { q with
        where_ := conjunction (cs ++ conditions (calls.map JoinedCall.call))
        orderClauses := ordering (calls.map JoinedCall.call)
        limit := ((calls.map JoinedCall.call).filterMap BuilderCall.limit?).getLast?
        offset := ((calls.map JoinedCall.call).filterMap BuilderCall.offset?).getLast? } := by
  induction calls using List.reverseRecOn with
  | nil =>
    obtain ⟨⟩ := q
    simp_all [applyAll, conditions, ordering]
  | append_singleton calls c ih =>
    obtain ⟨hcond, hord, hlim, hoff⟩ :=
      built_concat_clauses cs (calls.map JoinedCall.call) c
    rw [List.map_append, List.map_singleton, hcond, hord, hlim, hoff, applyAll,
      List.foldl_concat, ← applyAll, ih]
    cases c <;> rfl

end Joins

/-- A join of two or three tables that is made in between any calls has the conditions of all
of them, and the ordering, limit and offset of the calls on it alone. -/
theorem join_after_calls (tableName : String) (columns : List String) (calls : List BuilderCall)
    (type2 : JoinType) (table2 : String) (columns2 : List String) (cond2 : ExprNode)
    (calls2 : List JoinedCall) (type3 : JoinType) (table3 : String) (columns3 : List String)
    (cond3 : ExprNode) (calls3 : List JoinedCall) :
    let q := (QueryBuilder.fresh tableName columns).applyAll calls
    let q2 := (q.makeJoined type2 table2 columns2 cond2).applyAll calls2
    let q3 := (q2.makeJoined3 type3 table3 columns3 cond3).applyAll calls3
    let on2 := calls2.map JoinedCall.call
    let on3 := calls3.map JoinedCall.call
    q2 = ⟨type2, tableName, columns, table2, columns2, cond2,
        conjunction (conditions (calls ++ on2)), ordering on2,
        (on2.filterMap BuilderCall.limit?).getLast?,
        (on2.filterMap BuilderCall.offset?).getLast?⟩ ∧
      q3 = ⟨type2, type3, tableName, columns, table2, columns2, cond2, table3, columns3, cond3,
        conjunction (conditions (calls ++ on2 ++ on3)), ordering on3,
        (on3.filterMap BuilderCall.limit?).getLast?,
        (on3.filterMap BuilderCall.offset?).getLast?⟩ := by
  intro q q2 q3 on2 on3
  have hq : q = built tableName columns calls := applyAll_fresh tableName columns calls
  have hwhere : q.where_ = conjunction (conditions calls) := by rw [hq]; rfl
  have happend : ∀ as bs, conditions (as ++ bs) = conditions as ++ conditions bs :=
    fun _ _ => List.filterMap_append
  have hq2 := JoinedQueryBuilder.applyAll_eq (q := q.makeJoined type2 table2 columns2 cond2)
    hwhere rfl rfl rfl calls2
  have hwhere2 : q2.where_ = conjunction (conditions calls ++ conditions on2) := by
    rw [show q2 = _ from hq2]
  have hq3 := Joined3QueryBuilder.applyAll_eq (q := q2.makeJoined3 type3 table3 columns3 cond3)
    hwhere2 rfl rfl rfl calls3
  have hbase : q.tableName = tableName ∧ q.columns = columns := by rw [hq]; exact ⟨rfl, rfl⟩
  rw [happend, happend, happend, show q3 = _ from hq3, show q2 = _ from hq2]
  refine ⟨?_, ?_⟩ <;>
    simp only [QueryBuilder.makeJoined, JoinedQueryBuilder.makeJoined3, hbase] <;> rfl

end CppLinq
