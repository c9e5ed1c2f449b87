import CppLinq.Recording

/-!
# Statements write their trees

Every `generate` function visits the trees of its clauses in a fixed order
(`GenerateCall.trees`) and writes literal text around them
(`generate_writtenFrom`). An upsert has no trees : its dialect writes one placeholder for
each insert column (`holes_generateUpsert`).
-/

namespace CppLinq

open Template

/-- The statement is a concatenation of `Ts` : it records their slots, the values of the
static slots are its parameters, and its holes are theirs in order. -/
structure GeneratedSql.WrittenFrom (r : GeneratedSql) (Ts : List (Template ParameterSlot)) :
    Prop where
  slots_eq : r.slots = Ts.flatMap Template.slots
  params_eq : r.params = staticValues r.slots
  holes_eq : holes r.sql = seqHoles Ts 0

/-- What a generation writes, its statement is written from. -/
theorem Writes.writtenFrom {g : Gen Text} {Ts : List (Template ParameterSlot)}
    (h : Writes True [] g Ts) : (GeneratedSql.of g).WrittenFrom Ts := by
  obtain ⟨text, hg, hholes⟩ := h
  have hof : GeneratedSql.of g = ⟨text 0, staticValues (Ts.flatMap slots), Ts.flatMap slots⟩ := by
    simp [GeneratedSql.of, hg, Context.record, Context.start]
  exact ⟨by rw [hof], by rw [hof], by simpa [hof] using hholes trivial 0⟩

/-! ## Clauses -/

section Clauses

variable {d : Dialect} {ordered : Prop}

/-- A tree is written from itself. -/
theorem writes_visit (n : ExprNode) : Writes ordered [] (visit d n) [template d n] :=
  (visit_records d n).writes

theorem writes_visitLiteral (v : BoundValue) :
    Writes ordered [] (visitLiteral v) [template d (.literal v)] :=
  writes_visit (.literal v)

/-- The clauses of a statement, one lemma each : the trees that they are written from. -/
theorem writes_whereClause (w : Option ExprNode) :
    Writes ordered [] (whereClause d w) (w.toList.map (template d)) :=
  writes_visitOption fun n _ => visit_records d n

theorem writes_havingClause (w : Option ExprNode) :
    Writes ordered [] (havingClause d w) (w.toList.map (template d)) :=
  writes_visitOption fun n _ => visit_records d n

theorem writes_groupByClause (es : List ExprNode) :
    Writes ordered [] (groupByClause d es) (es.map (template d)) :=
  (writes_visitList fun n _ => visit_records d n).listClause (by simp)

@[simp] theorem holes_pagingOrder (limit offset : Option ℕ) (paging : String) :
    holes (pagingOrder limit offset paging) = [] := by
  unfold pagingOrder
  split <;> simp

theorem writes_orderByClause (os : List OrderByExpr) (limit offset : Option ℕ) (paging : String) :
    Writes ordered [] (orderByClause d os limit offset paging)
      ((os.map Prod.fst).map (template d)) :=
  (writes_visitOrderBy fun n _ => visit_records d n).listClause (by simp)

@[simp] theorem holes_commaBefore {α : Type*} (rest : List α) : holes (commaBefore rest) = [] := by
  unfold commaBefore
  split <;> simp

/-- The tree of a common table expression : its condition, if any. -/
def CteClause.trees (c : CteClause) : List ExprNode :=
  c.subquery.where_.toList

theorem writes_cteList :
    ∀ ctes : List CteClause,
      Writes ordered [] (cteList d ctes) ((ctes.flatMap CteClause.trees).map (template d))
  | [] => writes_pure fun _ => rfl
  | c :: ctes => by
    have hc : Writes ordered [] (whereClause d c.subquery.where_) (c.trees.map (template d)) :=
      writes_whereClause _
    have hctes := writes_cteList ctes
    refine (hc.bind fun _ => hctes.bind fun _ => writes_pure fun _ => ?_).of_eq ?_
    · simp
    · simp [CteClause.trees]

theorem writes_withClause (ctes : List CteClause) :
    Writes ordered [] (withClause d ctes) ((ctes.flatMap CteClause.trees).map (template d)) :=
  (writes_cteList ctes).listClause (by rintro rfl; rfl)

theorem writes_joinList :
    ∀ js : List JoinClause,
      Writes ordered [] (joinList d js) ((js.map JoinClause.onCondition).map (template d))
  | [] => writes_pure fun _ => rfl
  | j :: js => by
    have hjs := writes_joinList js
    exact ((writes_visit j.onCondition).bind fun _ => hjs.bind fun _ =>
      writes_pure fun _ => by simp).of_eq (by simp)

/-- The tree of a set operation : its condition, if any. -/
def SetOpClause.trees (op : SetOpClause) : List ExprNode :=
  op.where_.toList

theorem writes_setOpList :
    ∀ ops : List SetOpClause,
      Writes ordered [] (setOpList d ops) ((ops.flatMap SetOpClause.trees).map (template d))
  | [] => writes_pure fun _ => rfl
  | op :: ops => by
    have hop : Writes ordered [] (whereClause d op.where_) (op.trees.map (template d)) :=
      writes_whereClause _
    have hops := writes_setOpList ops
    exact (hop.bind fun _ => hops.bind fun _ => writes_pure fun _ => by simp).of_eq
      (by simp [SetOpClause.trees])

/-- The tree visited for an ordering of a set operation : none for a column. -/
def setOpOrderTree : OrderByExpr → List ExprNode
  | (.columnRef _, _) => []
  | (e, _) => [e]

theorem writes_setOpOrderBy :
    ∀ os : List OrderByExpr,
      Writes ordered [] (setOpOrderBy d os) ((os.flatMap setOpOrderTree).map (template d))
  | [] => writes_pure fun _ => rfl
  | (e, dir) :: os => by
    have hos := writes_setOpOrderBy os
    have he : Writes ordered [] (setOpOrderKey d e)
        ((setOpOrderTree (e, dir)).map (template d)) := by
      cases e with
      | columnRef ref => exact writes_pure fun _ => holes_quoteId d _
      | _ => exact writes_visit _
    refine (he.bind fun _ => hos.bind fun _ => writes_pure fun _ => ?_).of_eq ?_
    · simp
    · simp

theorem writes_assignmentList :
    ∀ as : List AssignExpr,
      Writes ordered [] (assignmentList d as) ((as.map AssignExpr.value).map (template d))
  | [] => writes_pure fun _ => rfl
  | a :: as => by
    have has := writes_assignmentList as
    refine ((writes_visit a.value).bind fun _ => has.bind fun _ => writes_pure fun _ => ?_).of_eq ?_
    · simp
    · simp

theorem writes_valueList :
    ∀ vs : List BoundValue,
      Writes ordered [] (valueList vs) ((vs.map .literal).map (template d))
  | [] => writes_pure fun _ => rfl
  | v :: vs => by
    have hvs := writes_valueList vs
    refine ((writes_visitLiteral (d := d) v).bind fun _ => hvs.bind fun _ =>
      writes_pure fun _ => ?_).of_eq ?_
    · simp
    · simp

theorem writes_valueAssignmentList :
    ∀ as : List (String × BoundValue),
      Writes ordered [] (valueAssignmentList d as)
        ((as.map fun a => ExprNode.literal a.2).map (template d))
  | [] => writes_pure fun _ => rfl
  | (_, v) :: as => by
    have has := writes_valueAssignmentList as
    refine ((writes_visitLiteral (d := d) v).bind fun _ => has.bind fun _ =>
      writes_pure fun _ => ?_).of_eq ?_
    · simp
    · simp

theorem writes_insertValues (columns : List String) (values : List BoundValue) :
    Writes ordered [] (insertValues columns values)
      ((if columns.isEmpty then [] else values.map .literal).map (template d)) := by
  unfold insertValues
  split
  · exact writes_pure fun _ => holes_lit _
  · exact ((writes_valueList (d := d) values).bind fun _ => writes_pure fun _ => by simp).of_eq
      (by simp)

end Clauses

/-! ## Statements -/

/-- The trees a call visits, in order. Values given as such are literals. -/
def GenerateCall.trees : GenerateCall → List ExprNode
  | .cteSelect ctes _ _ w order _ _ _ group having =>
    ctes.flatMap CteClause.trees ++ w.toList ++ group ++ having.toList ++ order.map Prod.fst
  | .select _ _ w order _ _ _ group having =>
    w.toList ++ group ++ having.toList ++ order.map Prod.fst
  | .joinedSelect _ _ joins _ w order _ _ _ =>
    joins.map JoinClause.onCondition ++ w.toList ++ order.map Prod.fst
  | .joinedCount _ joins w => joins.map JoinClause.onCondition ++ w.toList
  | .setOperation _ _ w _ ops order _ _ =>
    w.toList ++ ops.flatMap SetOpClause.trees ++ order.flatMap setOpOrderTree
  | .setOperationCount _ _ w _ ops => w.toList ++ ops.flatMap SetOpClause.trees
  | .insert _ columnNames values _ =>
    if columnNames.isEmpty then [] else values.map .literal
  | .upsert _ _ _ _ _ => []
  | .update _ assignments w => assignments.map AssignExpr.value ++ w.toList
  | .updateValues _ assignments w => (assignments.map fun a => .literal a.2) ++ w.toList
  | .delete _ w => w.toList
  | .count _ w _ _ => w.toList
  | .aggregate _ _ _ w => w.toList
  | .expression node => [node]

/-- The call is not an upsert. -/
def GenerateCall.HasTrees : GenerateCall → Prop
  | .upsert _ _ _ _ _ => False
  | _ => True

section Statements

variable {d : Dialect} {r : GeneratedSql}

/-- The statements, one lemma each : the trees that they are written from. -/
theorem generateCteSelect_writtenFrom {ctes : List CteClause} {table : String}
    {columns : List String} {w : Option ExprNode} {order : List OrderByExpr}
    {limit offset : Option ℕ} {distinct : Bool} {group : List ExprNode}
    {having : Option ExprNode}
    (h : generateCteSelect d ctes table columns w order limit offset distinct group having =
      .ok r) :
    r.WrittenFrom ((ctes.flatMap CteClause.trees ++ w.toList ++ group ++ having.toList ++
      order.map Prod.fst).map (template d)) := by
  unfold generateCteSelect at h
  cases hp : d.limitOffset limit offset with
  | error e => rw [hp] at h; contradiction
  | ok paging =>
    rw [hp] at h
    injection h with h
    rw [← h]
    refine Writes.writtenFrom (((writes_withClause ctes).bind fun _ =>
      (writes_whereClause w).bind fun _ => (writes_groupByClause group).bind fun _ =>
      (writes_havingClause having).bind fun _ =>
      (writes_orderByClause order limit offset paging).bind fun _ =>
      writes_pure fun _ => ?_).of_eq ?_)
    · simp
    · simp

theorem generateJoinedSelect_writtenFrom {table : String} {columns : List String}
    {joins : List JoinClause} {joined : List (String × List String)} {w : Option ExprNode}
    {order : List OrderByExpr} {limit offset : Option ℕ} {distinct : Bool}
    (h : generateJoinedSelect d table columns joins joined w order limit offset distinct =
      .ok r) :
    r.WrittenFrom ((joins.map JoinClause.onCondition ++ w.toList ++ order.map Prod.fst).map
      (template d)) := by
  unfold generateJoinedSelect at h
  cases hp : d.limitOffset limit offset with
  | error e => rw [hp] at h; contradiction
  | ok paging =>
    rw [hp] at h
    injection h with h
    rw [← h]
    have hcolumns : ∀ ts, holes (joinedColumns d ts) = [] := fun ts =>
      holes_joinSep_of_forall (holes_lit _) (by simp; aesop)
    refine Writes.writtenFrom (((writes_joinList joins).bind fun _ =>
      (writes_whereClause w).bind fun _ =>
      (writes_orderByClause order limit offset paging).bind fun _ =>
      writes_pure fun _ => ?_).of_eq ?_)
    · simp [hcolumns, distinctWord]
    · simp

theorem generateSetOperation_writtenFrom {table : String} {columns : List String}
    {w : Option ExprNode} {distinct : Bool} {ops : List SetOpClause}
    {order : List OrderByExpr} {limit offset : Option ℕ}
    (h : generateSetOperation d table columns w distinct ops order limit offset = .ok r) :
    r.WrittenFrom ((w.toList ++ ops.flatMap SetOpClause.trees ++ order.flatMap setOpOrderTree).map
      (template d)) := by
  unfold generateSetOperation at h
  cases hp : d.limitOffset limit offset with
  | error e => rw [hp] at h; contradiction
  | ok paging =>
    rw [hp] at h
    injection h with h
    rw [← h]
    refine Writes.writtenFrom (((writes_whereClause w).bind fun _ =>
      (writes_setOpList ops).bind fun _ =>
      ((writes_setOpOrderBy order).listClause ?_).bind fun _ =>
      writes_pure fun _ => ?_).of_eq ?_)
    · rintro rfl
      rfl
    · simp
    · simp

theorem generateSetOperationCount_writtenFrom {table : String} {columns : List String}
    {w : Option ExprNode} {distinct : Bool} {ops : List SetOpClause}
    (h : generateSetOperationCount d table columns w distinct ops = .ok r) :
    r.WrittenFrom ((w.toList ++ ops.flatMap SetOpClause.trees).map (template d)) := by
  unfold generateSetOperationCount at h
  cases hs : generateSetOperation d table columns w distinct ops [] none none with
  | error e => rw [hs] at h; contradiction
  | ok sub =>
    rw [hs] at h
    injection h with h
    have hsub := generateSetOperation_writtenFrom hs
    rw [← h]
    exact ⟨by simpa using hsub.slots_eq, hsub.params_eq, by simpa using hsub.holes_eq⟩

@[simp] theorem holes_onNamedColumn {clause : String → Text} (h : ∀ c, holes (clause c) = [])
    (column : Option String) : holes (onNamedColumn clause column) = [] := by
  unfold onNamedColumn
  split
  · split <;> simp [h]
  · rfl

@[simp] theorem holes_outputClause (column : String) : holes (d.outputClause column) = [] := by
  cases d <;> simp [Dialect.outputClause]

@[simp] theorem holes_returningClause (column : String) :
    holes (d.returningClause column) = [] := by
  cases d <;> simp [Dialect.returningClause]

theorem generateInsert_writtenFrom (table : String) (columns : List String)
    (values : List BoundValue) (returning : Option String) :
    (generateInsert d table columns values returning).WrittenFrom
      ((if columns.isEmpty then [] else values.map .literal).map (template d)) := by
  refine Writes.writtenFrom (((writes_insertValues (d := d) columns values).bind fun _ =>
    writes_pure fun _ => ?_).of_eq ?_)
  · split <;> simp
  · simp

/-- A statement but the upsert writes its trees. -/
theorem generate_writtenFrom {call : GenerateCall} (hcall : call.HasTrees)
    (h : generate d call = .ok r) : r.WrittenFrom (call.trees.map (template d)) := by
  cases call with
  | cteSelect => exact generateCteSelect_writtenFrom h
  | select => exact generateCteSelect_writtenFrom h
  | joinedSelect => exact generateJoinedSelect_writtenFrom h
  | joinedCount _ joins w =>
    injection h with h
    rw [← h]
    exact (((writes_joinList joins).bind fun _ => (writes_whereClause w).bind fun _ =>
      writes_pure fun _ => by simp).of_eq (by simp [GenerateCall.trees])).writtenFrom
  | setOperation => exact generateSetOperation_writtenFrom h
  | setOperationCount => exact generateSetOperationCount_writtenFrom h
  | insert table columns values returning =>
    injection h with h
    rw [← h]
    exact generateInsert_writtenFrom table columns values returning
  | upsert => exact hcall.elim
  | update _ as w =>
    injection h with h
    rw [← h]
    exact (((writes_assignmentList as).bind fun _ => (writes_whereClause w).bind fun _ =>
      writes_pure fun _ => by simp).of_eq (by simp [GenerateCall.trees])).writtenFrom
  | updateValues _ as w =>
    injection h with h
    rw [← h]
    exact (((writes_valueAssignmentList as).bind fun _ => (writes_whereClause w).bind fun _ =>
      writes_pure fun _ => by simp).of_eq (by simp [GenerateCall.trees])).writtenFrom
  | delete _ w =>
    injection h with h
    rw [← h]
    exact (((writes_whereClause w).bind fun _ => writes_pure fun _ => by simp).of_eq
      (by simp [GenerateCall.trees])).writtenFrom
  | count _ w distinct column =>
    injection h with h
    rw [← h]
    refine (((writes_whereClause w).bind fun _ => writes_pure fun _ => ?_).of_eq
      (by simp [GenerateCall.trees])).writtenFrom
    simp only [holes_append, holes_lit, holes_quoteId]
    split <;> simp
  | aggregate _ _ column w =>
    injection h with h
    rw [← h]
    refine (((writes_whereClause w).bind fun _ => writes_pure fun _ => ?_).of_eq
      (by simp [GenerateCall.trees])).writtenFrom
    simp only [holes_append, holes_lit, holes_quoteId]
    split <;> simp
  | expression node =>
    injection h with h
    rw [← h]
    exact (writes_visit node).writtenFrom

end Statements

/-! ## Upsert -/

/-- The number of placeholders an upsert has : one for each insert column. Oracle writes no
statement at all without insert or conflict columns. -/
def Dialect.upsertPlaceholders (d : Dialect) (insertColumns conflictColumns : List String) : ℕ :=
  if d = .oracle ∧ (insertColumns = [] ∨ conflictColumns = []) then 0 else insertColumns.length

/-- A list of placeholders has them in order. -/
@[simp] theorem holes_placeholderList (n : ℕ) :
    holes (Dialect.placeholderList n) = List.range n := by
  rw [Dialect.placeholderList, commaList, holes_joinSep (holes_lit _), List.map_map]
  induction n with
  | zero => rfl
  | succ n ih => simp [List.range_succ, ih, placeholder]

/-- Texts with the hole of their position each. -/
theorem holes_commaList_mapIdx {f : ℕ → String → Text} (hf : ∀ i c, holes (f i c) = [i])
    (cs : List String) : holes (commaList (cs.mapIdx f)) = List.range cs.length := by
  rw [commaList, holes_joinSep (holes_lit _)]
  induction cs using List.reverseRecOn with
  | nil => rfl
  | append_singleton cs c ih => simp [List.mapIdx_append, List.range_succ, ih, hf]

@[simp] theorem holes_targetIsSource (d : Dialect) (target source column : String) :
    holes (d.targetIsSource target source column) = [] := by
  simp [Dialect.targetIsSource]

@[simp] theorem holes_commaList_map {f : String → Text} (hf : ∀ c, holes (f c) = [])
    (cs : List String) : holes (commaList (cs.map f)) = [] :=
  holes_joinSep_of_forall (holes_lit _) (by simp [hf])

@[simp] theorem holes_mergeTail (d : Dialect) (target source : String)
    (ins conflict upd : List String) :
    holes (d.mergeTail target source ins conflict upd) = [] := by
  have hand : ∀ cs : List String,
      holes (andList (cs.map (d.targetIsSource target source))) = [] := fun cs =>
    holes_joinSep_of_forall (holes_lit _) (by simp)
  unfold Dialect.mergeTail
  split <;> simp [hand]

/-- The placeholders of an upsert stand in the order of its insert columns. -/
theorem holes_generateUpsert {d : Dialect} {table : String} {ins conflict upd : List String}
    {values : List BoundValue} {sql : Text}
    (h : d.generateUpsert table ins values conflict upd = .ok sql) :
    holes sql = List.range (d.upsertPlaceholders ins conflict) := by
  cases d with
  | sqlite | postgres =>
    injection h with h
    rw [← h]
    unfold Dialect.baseUpsert
    split <;> simp [Dialect.upsertPlaceholders]
  | mssql =>
    simp only [Dialect.generateUpsert, Dialect.mssqlUpsert] at h
    split at h
    · contradiction
    split at h
    · contradiction
    injection h with h
    rw [← h]
    simp [Dialect.upsertPlaceholders]
  | mysql =>
    cases ins with
    | nil => contradiction
    | cons c cs =>
      injection h with h
      rw [← h]
      simp only [holes_append, holes_lit]
      split
      · simp [Dialect.upsertPlaceholders]
      · simp [Dialect.upsertPlaceholders]
      · rw [holes_commaList_map (by simp)]
        simp [Dialect.upsertPlaceholders]
  | informix =>
    injection h with h
    rw [← h]
    simp [Dialect.informixUpsert, Dialect.upsertPlaceholders, placeholder,
      holes_commaList_mapIdx]
  | oracle =>
    injection h with h
    rw [← h]
    unfold Dialect.oracleUpsert Dialect.upsertPlaceholders
    split
    · simp_all
    · simp_all [placeholder, holes_commaList_mapIdx]

end CppLinq
