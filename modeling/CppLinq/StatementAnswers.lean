import CppLinq.QueryBuilding
import CppLinq.StatementReading

/-!
# What the texts answer

A `QueryServer` gives the clauses of a query a meaning : conditions that are true of rows,
groups, orderings and `DISTINCT`, each the server's affair up to the law of `AND`. A server
that reads a text and does what it reads (`Statement.rowsOn`) answers the query that a builder
was asked for : the text of `to_list` has the rows that the calls of the builder say, and the
text of `count` their number (`texts_answer`).
-/

namespace CppLinq

/-! ## Servers -/

/-- What a server makes of the clauses of a query. -/
structure QueryServer where
  Source : Type
  rows : String → List Source
  /-- The condition is true of a row. -/
  meets : ExprNode → Source → Bool
  meets_and : ∀ l r s, meets (.logic l .and r) s = (meets l s && meets r s)
  /-- The groups of rows that meet the condition of `HAVING`. -/
  group : List ExprNode → Option ExprNode → List Source → List Source
  sort : List OrderByExpr → List Source → List Source
  project : List String → Source → Row
  /-- The rows of a `DISTINCT` query, in whatever order. -/
  once : List Row → List Row

namespace QueryServer

variable (server : QueryServer)

/-- The rows of a table with a condition, if there is one. -/
def found (tableName : String) (where_ : Option ExprNode) : List server.Source :=
  (server.rows tableName).filter fun s => where_.all (server.meets · s)

/-- The rows that a query shows of those it has found. -/
def shown (columns : List String) (isDistinct : Bool) (sources : List server.Source) : List Row :=
  let rows := sources.map (server.project columns)
  if isDistinct then server.once rows else rows

/-- `COUNT(*)`, or `COUNT(DISTINCT c)`, which leaves `NULL` out. -/
def count (tableName : String) (where_ : Option ExprNode) (isDistinct : Bool)
    (distinctColumn : Option String) : ℕ :=
  match isDistinct, distinctColumn with
  | true, some c => (((server.found tableName where_).map (server.project [c])).filter
      (· ≠ [.null])).dedup.length
  | _, _ => (server.found tableName where_).length

end QueryServer

section Conditions

variable {server : QueryServer}

/-- A conjunction is true of a row if all its conditions are. -/
theorem meets_conjunction (cs : List ExprNode) (s : server.Source) :
    (conjunction cs).all (server.meets · s) = cs.all (server.meets · s) := by
  induction cs using List.reverseRecOn with
  | nil => rfl
  | append_singleton cs c ih =>
    rw [conjunction_concat, List.all_append, ← ih]
    cases conjunction cs with
    | none => simp [addCondition]
    | some w => simp [addCondition, server.meets_and]

/-- A conjunction finds the rows that all its conditions let through. -/
theorem found_conjunction (tableName : String) (cs : List ExprNode) :
    server.found tableName (conjunction cs) =
      (server.rows tableName).filter fun s => cs.all (server.meets · s) := by
  unfold QueryServer.found
  simp only [meets_conjunction]

end Conditions

/-! ## Servers of a dialect -/

/-- The server takes the functions of its dialect for those that they stand for. -/
structure QueryServer.Speaks (server : QueryServer) (d : Dialect) : Prop where
  meets : ∀ n s, server.meets (n.inDialect d) s = server.meets n s
  group : ∀ groupBy having found,
    server.group (groupBy.map (ExprNode.inDialect d)) (having.map (ExprNode.inDialect d)) found =
      server.group groupBy having found
  sort : ∀ orderBy found,
    server.sort (orderBy.map fun o => (o.1.inDialect d, o.2)) found = server.sort orderBy found

/-- The rows of a query of one table. -/
def RowQuery.rowsOn (server : QueryServer) (q : RowQuery) : List Row :=
  page q.last.limit q.last.offset (page q.first.limit q.first.offset
    (server.shown (q.columns.map ColumnRef.columnName) q.isDistinct
      (server.sort q.orderBy (server.group q.groupBy q.having
        (server.found q.tableName q.where_)))))

/-- The rows that a statement answers. -/
def Statement.rowsOn (server : QueryServer) : Statement → List Row
  | .rows q => q.rowsOn server
  | _ => []

/-- The number that a statement answers. -/
def Statement.numberOn (server : QueryServer) : Statement → ℕ
  | .count distinctColumn tableName _ where_ =>
    server.count tableName where_ distinctColumn.isSome distinctColumn
  | _ => 0

/-- The trees that a method call brings. -/
def BuilderCall.trees : BuilderCall → List ExprNode
  | .where_ condition => [condition]
  | .orderBy column _ => [column]
  | .thenBy column _ => [column]
  | .groupBy first rest => first :: rest
  | .having condition => [condition]
  | _ => []

section Answers

variable {d : Dialect} {server : QueryServer}

/-- The restriction is before the columns or at the end. -/
theorem page_restrictions (limit offset : Option ℕ) {rows : List Row}
    (hrows : rows.length ≤ noLimit) :
    page (d.lastRestriction limit offset).limit (d.lastRestriction limit offset).offset
        (page (d.firstRestriction limit offset).limit (d.firstRestriction limit offset).offset
          rows) = page limit offset rows := by
  cases d with
  | informix => rfl
  | sqlite => exact page_restriction .sqlite limit offset hrows
  | postgres => exact page_restriction .postgres limit offset hrows
  | mssql => exact page_restriction .mssql limit offset hrows
  | mysql => exact page_restriction .mysql limit offset hrows
  | oracle => exact page_restriction .oracle limit offset hrows

/-- A server finds the same rows under the dialect's names. -/
theorem QueryServer.Speaks.found (h : server.Speaks d) (tableName : String)
    (where_ : Option ExprNode) :
    server.found tableName (where_.map (ExprNode.inDialect d)) = server.found tableName where_ := by
  unfold QueryServer.found
  cases where_ with
  | none => rfl
  | some w => simp only [Option.map_some, Option.all_some, h.meets]

theorem readable_and {l r : ExprNode} (hl : l.Readable d) (hr : r.Readable d) :
    (ExprNode.logic l .and r).Readable d := by
  unfold ExprNode.Readable
  rw [ExprNode.forall_mem_visited]
  refine ⟨⟨trivial, trivial⟩, fun c hc => ?_⟩
  simp only [ExprNode.children, List.mem_cons, List.not_mem_nil, or_false] at hc
  rcases hc with rfl | rfl
  · exact hl
  · exact hr

theorem readable_conjunction {cs : List ExprNode} (hcs : ∀ c ∈ cs, c.Readable d) :
    ∀ n ∈ conjunction cs, n.Readable d := by
  induction cs using List.reverseRecOn with
  | nil => simp [conjunction]
  | append_singleton cs c ih =>
    have hc := hcs c (by simp)
    have hw := ih fun c' hc' => hcs c' (List.mem_append_left [c] hc')
    rw [conjunction_concat]
    cases hcs' : conjunction cs with
    | none => simpa [addCondition] using hc
    | some w =>
      have hand := readable_and (hw w hcs') hc
      simpa [addCondition] using hand

section Calls

variable {calls : List BuilderCall} (hcalls : ∀ c ∈ calls, ∀ n ∈ c.trees, n.Readable d)
include hcalls

theorem readable_conditions : ∀ n ∈ conditions calls, n.Readable d := by
  intro n hn
  obtain ⟨c, hc, hn⟩ := List.mem_filterMap.mp hn
  refine hcalls c hc n ?_
  cases c <;> simp_all [BuilderCall.condition?, BuilderCall.trees]

theorem readable_ordering : ∀ o ∈ ordering calls, o.1.Readable d := by
  intro o ho
  have hmem : ∃ c ∈ calls, c.orderBy? = some o ∨ c.thenBy? = some o := by
    rcases List.mem_append.mp ho with ho | ho
    · have hlast := List.mem_of_getLast? (Option.mem_toList.mp ho)
      obtain ⟨c, hc, hco⟩ := List.mem_filterMap.mp hlast
      exact ⟨c, hc, Or.inl hco⟩
    · obtain ⟨c, hc, hco⟩ := List.mem_filterMap.mp ho
      exact ⟨c, (List.rtakeWhile_suffix _ calls).subset hc, Or.inr hco⟩
  obtain ⟨c, hc, hco⟩ := hmem
  refine hcalls c hc o.1 ?_
  obtain ⟨e, dir⟩ := o
  cases c with
  | orderBy column dir' | thenBy column dir' =>
    simp only [BuilderCall.orderBy?, BuilderCall.thenBy?, Option.some.injEq, Prod.mk.injEq,
      reduceCtorEq, or_false, false_or] at hco
    exact List.mem_singleton.mpr hco.1.symm
  | _ => simp [BuilderCall.orderBy?, BuilderCall.thenBy?] at hco

theorem readable_groups : ∀ n ∈ calls.flatMap BuilderCall.groups, n.Readable d := by
  intro n hn
  obtain ⟨c, hc, hn⟩ := List.mem_flatMap.mp hn
  refine hcalls c hc n ?_
  cases c <;> simp_all [BuilderCall.groups, BuilderCall.trees]

theorem readable_having :
    ∀ n ∈ (calls.filterMap BuilderCall.having?).getLast?, n.Readable d := by
  intro n hn
  obtain ⟨c, hc, hn⟩ := List.mem_filterMap.mp (List.mem_of_getLast? hn)
  refine hcalls c hc n ?_
  cases c <;> simp_all [BuilderCall.having?, BuilderCall.trees]

end Calls

/-- A server that does what it reads answers the text of `to_list` with the rows that the
calls of the builder ask for, and the text of `count` with the number of rows for which all
conditions are true. -/
theorem texts_answer (d : Dialect) (server : QueryServer) (hserver : server.Speaks d)
    (tableName : String) (columns : List String) (calls : List BuilderCall)
    (hctes : calls.filterMap BuilderCall.cte? = [])
    (hcalls : ∀ c ∈ calls, ∀ n ∈ c.trees, n.Readable d) :
    let q := (QueryBuilder.fresh tableName columns).applyAll calls
    let found := (server.rows tableName).filter fun s => (conditions calls).all (server.meets · s)
    let rows := server.shown columns (calls.any BuilderCall.isDistinct)
      (server.sort (ordering calls) (server.group (calls.flatMap BuilderCall.groups)
        (calls.filterMap BuilderCall.having?).getLast? found))
    (rows.length ≤ noLimit → ∀ r, generate d q.selectCall = .ok r →
      (readStatement d r.slots (d.write r.sql)).map (Statement.rowsOn server) =
        some (page (calls.filterMap BuilderCall.limit?).getLast?
          (calls.filterMap BuilderCall.offset?).getLast? rows)) ∧
    (∀ r, generate d q.countCall = .ok r →
      (readStatement d r.slots (d.write r.sql)).map (Statement.numberOn server) =
        some found.length) := by
  intro q found rows
  have hq : q = built tableName columns calls := applyAll_fresh tableName columns calls
  have hwhere := readable_conjunction (readable_conditions hcalls)
  have hfound : server.found tableName (conjunction (conditions calls)) = found :=
    found_conjunction tableName (conditions calls)
  refine ⟨fun hrows r h => ?_, fun r h => ?_⟩
  · have hselect : q.selectCall = .select tableName columns (conjunction (conditions calls))
        (ordering calls) (calls.filterMap BuilderCall.limit?).getLast?
        (calls.filterMap BuilderCall.offset?).getLast? (calls.any BuilderCall.isDistinct)
        (calls.flatMap BuilderCall.groups) (calls.filterMap BuilderCall.having?).getLast? := by
      rw [hq, QueryBuilder.selectCall, if_pos (by rw [built, hctes]; rfl)]
      rfl
    rw [hselect] at h
    rw [read_select hwhere (readable_groups hcalls) (readable_having hcalls)
      (readable_ordering hcalls) h, Option.map_some, Statement.rowsOn, RowQuery.rowsOn,
      map_columnName, hserver.found, hserver.group, hserver.sort, hfound]
    exact congrArg some (page_restrictions _ _ hrows)
  · have hcount : q.countCall = .count tableName (conjunction (conditions calls)) false none := by
      rw [hq]
      rfl
    rw [hcount] at h
    injection h with h
    subst h
    have hnumber : ∀ where_, server.count tableName where_ false none =
        (server.found tableName where_).length := fun _ => rfl
    rw [generateCount_text, if_neg Bool.false_ne_true,
      read_countText none tableName (by simp) hwhere, Option.map_some, Statement.numberOn,
      Option.isSome_none, hnumber, hserver.found, hfound]

end Answers

/-- A server with five rows in each table, that finds every condition true. -/
abbrev fiveRows : QueryServer where
  Source := ℕ
  rows _ := List.range 5
  meets _ _ := true
  meets_and _ _ _ := rfl
  group _ _ found := found
  sort _ found := found
  project _ i := [.int64 (Int64.ofNat i)]
  once := List.dedup

theorem speaks_fiveRows (d : Dialect) : fiveRows.Speaks d where
  meets _ _ := rfl
  group _ _ _ := rfl
  sort _ _ := rfl

/-- Films with a long title, from the third on. -/
def longTitles : List BuilderCall :=
  [.where_ (.binary (.function "LENGTH" [.columnRef ⟨"", "title"⟩]) .gt (.literal (.int64 20))),
    .orderBy (.columnRef ⟨"", "title"⟩) .asc, .offset 2]

theorem readable_longTitles : ∀ c ∈ longTitles, ∀ n ∈ c.trees, n.Readable .mssql := by
  have hcolumn : (ExprNode.columnRef ⟨"", "title"⟩).Readable .mssql :=
    readable_of_leaf rfl ⟨trivial, trivial⟩
  have hcondition : (ExprNode.binary (.function "LENGTH" [.columnRef ⟨"", "title"⟩]) .gt
      (.literal (.int64 20))).Readable .mssql := by
    have hname := isPredicateNode_function .mssql (f := "LENGTH") (by decide)
      [.columnRef ⟨"", "title"⟩]
    intro m hm
    simp only [ExprNode.visited_eq, ExprNode.children, List.flatMap_cons, List.flatMap_nil,
      List.append_nil, List.mem_cons, List.mem_append, List.not_mem_nil, or_false] at hm
    rcases hm with rfl | (rfl | rfl) | rfl
    · exact ⟨trivial, rfl, rfl, rfl⟩
    · exact ⟨hname, trivial⟩
    · exact ⟨trivial, trivial⟩
    · exact ⟨trivial, trivial⟩
  intro c hc n hn
  simp only [longTitles, List.mem_cons, List.not_mem_nil, or_false] at hc
  rcases hc with rfl | rfl | rfl
  · obtain rfl := List.mem_singleton.mp hn
    exact hcondition
  · obtain rfl := List.mem_singleton.mp hn
    exact hcolumn
  · contradiction

theorem texts_answer_longTitles : ∃ r,
    generate .mssql ((QueryBuilder.fresh "films" ["id"]).applyAll longTitles).selectCall = .ok r ∧
    (readStatement .mssql r.slots (Dialect.write .mssql r.sql)).map
        (Statement.rowsOn fiveRows) = some [[.int64 2], [.int64 3], [.int64 4]] :=
  ⟨_, rfl, (texts_answer .mssql fiveRows (speaks_fiveRows .mssql) "films" ["id"] longTitles rfl
    readable_longTitles).1 (by decide) _ rfl⟩

end CppLinq
