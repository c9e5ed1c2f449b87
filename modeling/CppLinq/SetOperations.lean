import CppLinq.SqlGenerator
import Mathlib.Data.Multiset.Dedup
import Mathlib.Data.Multiset.Filter
import Mathlib.Data.Multiset.AddSub

/-!
# Chains of set operations

`generate_set_operation` writes a chain as its queries with the operators between them, without
a parenthesis (`generateSetOperation_eq`). What the text means is then up to the precedence of
the dialect : where `INTERSECT` binds tighter than the others (`Dialect.intersectFirst`) the
server reads `readTight`, elsewhere `readLeft`, which is what the calls of the builder say.

The two agree for all queries and all contents of the tables exactly when no `INTERSECT` stands
behind another operator (`setOperation_groups_left_iff`).
-/

namespace CppLinq

/-! ## Queries and rows -/

/-- A query of a chain. -/
structure SelectQuery where
  tableName : String
  columns : List String
  where_ : Option ExprNode := none
  isDistinct : Bool := false

/-- The query on the right of an operator. -/
def SetOpClause.query (op : SetOpClause) : SelectQuery :=
  ⟨op.tableName, op.columns, op.where_, op.isDistinct⟩

/-- A row of a result. -/
abbrev Row := List BoundValue

/-- What the tables of a database give for `SELECT columns FROM table WHERE condition`. -/
abbrev SelectRows := String → List String → Option ExprNode → Multiset Row

/-- The rows of a query, once each if it is `DISTINCT`. -/
def SelectQuery.rows (db : SelectRows) (q : SelectQuery) : Multiset Row :=
  if q.isDistinct then (db q.tableName q.columns q.where_).dedup
  else db q.tableName q.columns q.where_

/-- The rows of an operator : only `UNION ALL` keeps a row more than once. -/
def SetOpType.apply : SetOpType → Multiset Row → Multiset Row → Multiset Row
  | .union, r, s => (r + s).dedup
  | .unionAll, r, s => r + s
  | .intersect, r, s => r.dedup.filter (· ∈ s)
  | .except, r, s => r.dedup.filter (· ∉ s)

/-- A chain with its grouping. -/
inductive SetExpr
  | query (q : SelectQuery)
  | op (type : SetOpType) (left right : SetExpr)

/-- The rows of an expression. -/
def SetExpr.rows (db : SelectRows) : SetExpr → Multiset Row
  | .query q => q.rows db
  | .op type left right => type.apply (left.rows db) (right.rows db)

/-! ## How a server groups a chain -/

/-- `((q₀ op₁ q₁) op₂ q₂) …` : every operator takes what stands before it. -/
def readLeft : SetExpr → List SetOpClause → SetExpr
  | left, [] => left
  | left, op :: ops => readLeft (.op op.opType left (.query op.query)) ops

/-- The operator before a term, with all that stands before it, applied to the term. -/
def closeTerm : Option (SetExpr × SetOpType) → SetExpr → SetExpr
  | none, term => term
  | some (left, type), term => .op type left term

/-- `INTERSECT` extends the term it stands behind, any other operator ends it. -/
def readTight : Option (SetExpr × SetOpType) → SetExpr → List SetOpClause → SetExpr
  | before, term, [] => closeTerm before term
  | before, term, op :: ops =>
    if op.opType = .intersect then
      readTight before (.op .intersect term (.query op.query)) ops
    else readTight (some (closeTerm before term, op.opType)) (.query op.query) ops

/-- `INTERSECT` binds tighter than `UNION` and `EXCEPT`. -/
def Dialect.intersectFirst : Dialect → Bool
  | .postgres | .mssql | .mysql => true
  | .sqlite | .informix | .oracle => false

/-- What the server reads in a chain without parentheses. -/
def Dialect.readChain (d : Dialect) (base : SelectQuery) (ops : List SetOpClause) : SetExpr :=
  if d.intersectFirst then readTight none (.query base) ops else readLeft (.query base) ops

/-- The number that `SELECT COUNT(*)` around a chain gives. -/
def Dialect.readCount (d : Dialect) (db : SelectRows) (base : SelectQuery)
    (ops : List SetOpClause) : ℕ :=
  ((d.readChain base ops).rows db).card

/-! ## The text is the chain without parentheses -/

/-- The text of a query. -/
def SelectQuery.text (d : Dialect) (q : SelectQuery) : Gen Text := do
  let whereStr ← whereClause d q.where_
  return lit "SELECT " ++ selectFrom d "*" q.isDistinct q.columns q.tableName ++ whereStr

/-- Each operator and the query on its right. -/
def operatorsText (d : Dialect) : List SetOpClause → Gen Text
  | [] => return []
  | op :: ops => do
    let queryStr ← op.query.text d
    let tail ← operatorsText d ops
    return lit op.opType.sql ++ queryStr ++ tail

/-- The queries of a chain with the operators between them. -/
def chainText (d : Dialect) (base : SelectQuery) (ops : List SetOpClause) : Gen Text := do
  let baseStr ← base.text d
  let opStr ← operatorsText d ops
  return baseStr ++ opStr

section Text

variable {d : Dialect}

theorem setOpList_eq (d : Dialect) (ops : List SetOpClause) :
    setOpList d ops = operatorsText d ops := by
  induction ops with
  | nil => rfl
  | cons op ops ih =>
    funext c
    have hleft : setOpList d (op :: ops) c =
        (lit op.opType.sql ++ lit "SELECT " ++
          selectFrom d "*" op.isDistinct op.columns op.tableName ++ (whereClause d op.where_ c).1 ++
          (setOpList d ops (whereClause d op.where_ c).2).1,
        (setOpList d ops (whereClause d op.where_ c).2).2) := rfl
    have hright : operatorsText d (op :: ops) c =
        (lit op.opType.sql ++ (lit "SELECT " ++
          selectFrom d "*" op.isDistinct op.columns op.tableName ++
            (whereClause d op.where_ c).1) ++
          (operatorsText d ops (whereClause d op.where_ c).2).1,
        (operatorsText d ops (whereClause d op.where_ c).2).2) := rfl
    rw [hleft, hright, ih]
    simp only [List.append_assoc]

/-- A set operation without ordering and paging is written as its chain. -/
theorem generateSetOperation_eq (d : Dialect) (base : SelectQuery) (ops : List SetOpClause) :
    generateSetOperation d base.tableName base.columns base.where_ base.isDistinct ops [] none
      none = .ok (.of (chainText d base ops)) := by
  unfold generateSetOperation
  rw [Dialect.limitOffset_none, Dialect.selectPrefixLimitOffset_none]
  refine congrArg Except.ok (congrArg GeneratedSql.of ?_)
  rw [setOpList_eq]
  funext c
  have hleft : ∀ t u v : Text, lit "SELECT " ++ [] ++ t ++ u ++ v ++ [] ++ [] =
      lit "SELECT " ++ t ++ u ++ v := by
    intro t u v
    rw [List.append_nil, List.append_nil, List.append_nil]
  exact Prod.ext (hleft _ _ _) rfl

/-- The count puts parentheses around the whole chain. -/
theorem generateSetOperationCount_eq (d : Dialect) (base : SelectQuery) (ops : List SetOpClause) :
    generateSetOperationCount d base.tableName base.columns base.where_ base.isDistinct ops =
      .ok { GeneratedSql.of (chainText d base ops) with
        sql := lit "SELECT COUNT(*) FROM (" ++ (GeneratedSql.of (chainText d base ops)).sql ++
          lit ") " ++ d.quoteId "_sub" } := by
  unfold generateSetOperationCount
  rw [generateSetOperation_eq]
  rfl

end Text

/-! ## When the grouping is the builder's -/

/-- Every `INTERSECT` stands before all other operators. -/
def IntersectsLead : List SetOpType → Prop
  | [] => True
  | .intersect :: types => IntersectsLead types
  | _ :: types => .intersect ∉ types

instance IntersectsLead.decidable : (types : List SetOpType) → Decidable (IntersectsLead types)
  | [] => inferInstanceAs (Decidable True)
  | .intersect :: types => IntersectsLead.decidable types
  | .union :: types | .unionAll :: types | .except :: types =>
    inferInstanceAs (Decidable (SetOpType.intersect ∉ types))

section Grouping

variable {db : SelectRows} {type : SetOpType}

theorem readTight_of_not_mem {ops : List SetOpClause}
    (h : SetOpType.intersect ∉ ops.map SetOpClause.opType)
    (before : Option (SetExpr × SetOpType)) (term : SetExpr) :
    readTight before term ops = readLeft (closeTerm before term) ops := by
  induction ops generalizing before term with
  | nil => rfl
  | cons op ops ih =>
    rw [List.map_cons, List.mem_cons, not_or] at h
    rw [readTight, if_neg (Ne.symm h.1), ih h.2, readLeft]
    rfl

/-- Where the intersections lead the two groupings are the same. -/
theorem readTight_of_intersectsLead {ops : List SetOpClause}
    (h : IntersectsLead (ops.map SetOpClause.opType)) (term : SetExpr) :
    readTight none term ops = readLeft term ops := by
  induction ops generalizing term with
  | nil => rfl
  | cons op ops ih =>
    by_cases hop : op.opType = .intersect
    · rw [List.map_cons, hop] at h
      rw [readTight, if_pos hop, readLeft, ih h, hop]
    · have hrest : SetOpType.intersect ∉ ops.map SetOpClause.opType := by
        rw [List.map_cons] at h
        cases htype : op.opType with
        | intersect => exact absurd htype hop
        | _ =>
          rw [htype] at h
          exact h
      rw [readTight, if_neg hop, readLeft, readTight_of_not_mem hrest]
      rfl

/-! ### Where they differ -/

/-- One table with a row, the others without. -/
def oneRow : SelectRows := fun table _ _ =>
  if table = "full" then {[]} else 0

/-- A query whose table has a row. -/
def fullQuery : SelectQuery :=
  ⟨"full", [], none, false⟩

/-- An operator on the table `table`. -/
def operatorOn (table : String) (type : SetOpType) : SetOpClause :=
  ⟨type, table, [], none, false⟩

theorem opType_operatorOn (table : String) (type : SetOpType) :
    (operatorOn table type).opType = type :=
  rfl

/-- The leading intersections on the table with a row, everything after them on an empty one. -/
def differingOps : List SetOpType → List SetOpClause
  | [] => []
  | .intersect :: types => operatorOn "full" .intersect :: differingOps types
  | type :: types => (type :: types).map (operatorOn "empty")

theorem map_opType_map_operatorOn (table : String) (types : List SetOpType) :
    (types.map (operatorOn table)).map SetOpClause.opType = types := by
  rw [List.map_map]
  exact List.map_id types

theorem map_opType_differingOps (types : List SetOpType) :
    (differingOps types).map SetOpClause.opType = types := by
  induction types with
  | nil => rfl
  | cons type types ih =>
    cases type with
    | intersect => exact congrArg (SetOpType.intersect :: ·) ih
    | _ => exact map_opType_map_operatorOn "empty" _

theorem rows_empty (type : SetOpType) : (operatorOn "empty" type).query.rows oneRow = 0 := by
  rfl

/-- Operators on an empty table keep a row, `INTERSECT` apart. -/
theorem apply_zero (h : type ≠ .intersect) : type.apply {[]} 0 = {([] : Row)} := by
  cases type with
  | intersect => contradiction
  | _ => decide

theorem zero_apply (type : SetOpType) : type.apply 0 0 = 0 := by
  cases type <;> rfl

/-- Read from the left, an intersection with an empty table empties what stands before it. -/
theorem rows_readLeft_empty {types : List SetOpType} (left : SetExpr)
    (h : left.rows oneRow = 0 ∨ left.rows oneRow = {[]} ∧ SetOpType.intersect ∈ types) :
    (readLeft left (types.map (operatorOn "empty"))).rows oneRow = 0 := by
  induction types generalizing left with
  | nil => exact h.elim id fun h => nomatch h.2
  | cons type types ih =>
    rw [List.map_cons, readLeft]
    refine ih _ ?_
    rw [SetExpr.rows, SetExpr.rows, rows_empty]
    rcases h with h | ⟨h, hmem⟩
    · rw [h]
      exact Or.inl (zero_apply _)
    · rw [h]
      by_cases htype : type = .intersect
      · subst htype
        exact Or.inl rfl
      · refine Or.inr ⟨apply_zero htype, ?_⟩
        exact (List.mem_cons.mp hmem).resolve_left (Ne.symm htype)

/-- With the intersections first, a term of empty tables leaves the row before it alone. -/
theorem rows_readTight_empty {types : List SetOpType} {left term : SetExpr}
    (htype : type ≠ .intersect) (hleft : left.rows oneRow = {[]}) (hterm : term.rows oneRow = 0) :
    (readTight (some (left, type)) term (types.map (operatorOn "empty"))).rows oneRow = {[]} := by
  have hclose : ∀ {type : SetOpType} {left term : SetExpr}, type ≠ .intersect →
      left.rows oneRow = {[]} → term.rows oneRow = 0 →
      (closeTerm (some (left, type)) term).rows oneRow = {[]} := by
    intro type left term htype hleft hterm
    rw [closeTerm, SetExpr.rows, hleft, hterm, apply_zero htype]
  induction types generalizing left term type with
  | nil => exact hclose htype hleft hterm
  | cons next types ih =>
    rw [List.map_cons, readTight, opType_operatorOn]
    by_cases hnext : next = .intersect
    · have hterm' : (SetExpr.op .intersect term (.query (operatorOn "empty" next).query)).rows
          oneRow = 0 := by
        rw [SetExpr.rows, hterm]
        rfl
      rw [if_pos hnext]
      exact ih htype hleft hterm'
    · rw [if_neg hnext]
      exact ih hnext (hclose htype hleft hterm) (rows_empty next)

/-- A chain with an intersection behind another operator is read in two ways. -/
theorem rows_differingOps {types : List SetOpType} (h : ¬ IntersectsLead types) {term : SetExpr}
    (hterm : term.rows oneRow = {[]}) :
    (readTight none term (differingOps types)).rows oneRow = {[]} ∧
      (readLeft term (differingOps types)).rows oneRow = 0 := by
  induction types generalizing term with
  | nil => exact absurd trivial h
  | cons type types ih =>
    by_cases htype : type = .intersect
    · subst htype
      rw [differingOps, readTight, opType_operatorOn, if_pos rfl, readLeft, opType_operatorOn]
      refine ih h ?_
      rw [SetExpr.rows, hterm]
      decide
    · have hops : differingOps (type :: types) = (type :: types).map (operatorOn "empty") := by
        cases type with
        | intersect => contradiction
        | _ => rfl
      have hmem : SetOpType.intersect ∈ types := by
        cases type with
        | intersect => contradiction
        | _ => exact not_not.mp h
      rw [hops]
      constructor
      · rw [List.map_cons, readTight, opType_operatorOn, if_neg htype]
        exact rows_readTight_empty htype hterm (rows_empty type)
      · exact rows_readLeft_empty term (Or.inr ⟨hterm, List.mem_cons_of_mem type hmem⟩)

end Grouping

/-- The text of a chain with the operators `types` is the chain without parentheses, that of its
count has parentheses around the whole chain, and the rows that the server reads in it, and
their number, are those of the chain grouped from the left, for all queries and whatever the
tables hold, iff the server reads from left to right or no `INTERSECT` stands behind another
operator. -/
theorem setOperation_groups_left_iff (d : Dialect) (types : List SetOpType) :
    (∀ (base : SelectQuery) (ops : List SetOpClause), ops.map SetOpClause.opType = types →
      generateSetOperation d base.tableName base.columns base.where_ base.isDistinct ops [] none
        none = .ok (.of (chainText d base ops)) ∧
      generateSetOperationCount d base.tableName base.columns base.where_ base.isDistinct ops =
        .ok { GeneratedSql.of (chainText d base ops) with
          sql := lit "SELECT COUNT(*) FROM (" ++ (GeneratedSql.of (chainText d base ops)).sql ++
            lit ") " ++ d.quoteId "_sub" } ∧
      ∀ db : SelectRows,
        (d.readChain base ops).rows db = (readLeft (.query base) ops).rows db ∧
        d.readCount db base ops = ((readLeft (.query base) ops).rows db).card) ↔
    (d.intersectFirst = true → IntersectsLead types) := by
  constructor
  · intro h hfirst
    by_contra hlead
    have hall := h fullQuery (differingOps types) (map_opType_differingOps types)
    have hrows := (hall.2.2 oneRow).1
    have hfull : (SetExpr.query fullQuery).rows oneRow = {[]} := rfl
    obtain ⟨htight, hleft⟩ := rows_differingOps hlead hfull
    rw [Dialect.readChain, if_pos hfirst, htight, hleft] at hrows
    exact absurd hrows (by decide)
  · rintro h base ops rfl
    refine ⟨generateSetOperation_eq d base ops, generateSetOperationCount_eq d base ops,
      fun db => ?_⟩
    have hread : d.readChain base ops = readLeft (.query base) ops := by
      unfold Dialect.readChain
      split
      · rename_i hfirst
        exact readTight_of_intersectsLead (h hfirst) _
      · rfl
    rw [Dialect.readCount, hread]
    exact ⟨rfl, rfl⟩

/-- `full UNION empty INTERSECT empty` has a row on PostgreSQL, and none from the left. -/
theorem not_forall_setOperation_groups_left : ¬ ∀ (d : Dialect) (base : SelectQuery)
    (ops : List SetOpClause) (db : SelectRows),
    (d.readChain base ops).rows db = (readLeft (.query base) ops).rows db := by
  intro h
  exact absurd (h .postgres fullQuery [operatorOn "empty" .union, operatorOn "empty" .intersect]
    oneRow) (by decide)

end CppLinq
