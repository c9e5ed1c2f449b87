import CppLinq.QueryReading

/-!
# Queries for rows

A query for rows, whether of a table, of a join or of a set operation, has the same clauses in
the same order (`RowQuery`). The three functions of the generator that write one write one text
(`rowText`), and what a server reads in it is the query (`takes_rowText`).
-/

namespace CppLinq

open Reader

/-! ## Set operations -/

section SetOperations

variable (d : Dialect) (slots : List ParameterSlot)

/-- The words of a set operator. -/
def readSetOpType : Reader Char SetOpType :=
  (do exactly " UNION ALL ".toList; return .unionAll) <|>
    (do exactly " UNION ".toList; return .union) <|>
    (do exactly " INTERSECT ".toList; return .intersect) <|>
    (do exactly " EXCEPT ".toList; return .except)

/-- At most `n` operators with their queries. -/
def readSetOpLoop : ℕ → ℕ → Reader Char (List SetOpClause × ℕ)
  | 0, k => return ([], k)
  | n + 1, k =>
    (do
      let type ← readSetOpType
      exactly "SELECT ".toList
      let (isDistinct, columns, tableName) ← readSelectFrom d
      let (where_, k) ← readCondition d slots " WHERE " k
      let (ops, k) ← readSetOpLoop n k
      return (⟨type, tableName, columns.map ColumnRef.columnName, where_, isDistinct⟩ :: ops, k))
      <|> return ([], k)

/-- The further queries of a chain, the parameters numbered from `k` on. -/
def readSetOps (k : ℕ) : Reader Char (List SetOpClause × ℕ) := do
  readSetOpLoop d slots (← get).length k

/-- The words of the operators. -/
def setOpHeads : List String :=
  [" UNION ALL ", " UNION ", " INTERSECT ", " EXCEPT "]

/-- The condition can be read. -/
def SetOpClause.Readable (op : SetOpClause) : Prop :=
  ∀ n ∈ op.where_, n.Readable d

/-- The clause, its functions named as the dialect names them. -/
def SetOpClause.inDialect (op : SetOpClause) : SetOpClause :=
  { op with where_ := op.where_.map (ExprNode.inDialect d) }

variable {d slots} {after : List String} {rest : List Char}

theorem takes_setOpType (type : SetOpType) (rest : List Char) :
    Takes readSetOpType type.sql.toList type ("SELECT ".toList ++ rest) := by
  have hword : ∀ (w : String) (r : List Char),
      Takes (do exactly w.toList; return type) w.toList type r :=
    fun w r => (takes_exactly w.toList r).map fun _ => type
  cases type with
  | unionAll => exact (hword " UNION ALL " _).orElse
  | union =>
    exact Takes.orElse_right (run_bind_eq_none (run_exactly_eq_none rfl))
      (hword " UNION " _).orElse
  | intersect =>
    exact Takes.orElse_right (run_bind_eq_none (run_exactly_eq_none rfl))
      (Takes.orElse_right (run_bind_eq_none (run_exactly_eq_none rfl))
        (hword " INTERSECT " _).orElse)
  | except =>
    exact Takes.orElse_right (run_bind_eq_none (run_exactly_eq_none rfl))
      (Takes.orElse_right (run_bind_eq_none (run_exactly_eq_none rfl))
        (Takes.orElse_right (run_bind_eq_none (run_exactly_eq_none rfl)) (hword " EXCEPT " _)))

theorem run_readSetOpType (h : Follows after rest)
    (hafter : setOpHeads.all (Unlike · after) = true) : readSetOpType.run rest = none := by
  have hnone : ∀ w ∈ setOpHeads, rest.dropPrefix? w.toList = none := by
    intro w hw
    refine h.dropPrefix? (List.all_eq_true.mp hafter w hw) ?_
    simp only [setOpHeads, List.mem_cons, List.not_mem_nil, or_false] at hw
    rcases hw with rfl | rfl | rfl | rfl <;> decide
  have hword : ∀ w ∈ setOpHeads, ∀ type : SetOpType,
      (do exactly w.toList; return type : Reader Char SetOpType).run rest = none :=
    fun w hw type => run_bind_eq_none (run_exactly_eq_none (hnone w hw))
  exact run_orElse_eq_none (hword " UNION ALL " (by decide) _)
    (run_orElse_eq_none (hword " UNION " (by decide) _)
      (run_orElse_eq_none (hword " INTERSECT " (by decide) _) (hword " EXCEPT " (by decide) _)))

theorem setOpList_cons (op : SetOpClause) (ops : List SetOpClause) (c : Context) :
    setOpList d (op :: ops) c =
      (lit op.opType.sql ++ lit "SELECT " ++
        selectFrom d "*" op.isDistinct op.columns op.tableName ++ (whereClause d op.where_ c).1 ++
        (setOpList d ops (c.record (op.trees.flatMap ExprNode.leaves))).1,
        (setOpList d ops (c.record (op.trees.flatMap ExprNode.leaves))).2) := by
  have hwrites : Writes True [] (whereClause d op.where_) _ := writes_whereClause op.where_
  obtain ⟨text, hrecords⟩ := hwrites.records
  have hwhere : (whereClause d op.where_ c).2 = c.record (op.trees.flatMap ExprNode.leaves) := by
    rw [hrecords, List.flatMap_map]
    rfl
  rw [← hwhere]
  rfl

theorem begins_setOpList (ops : List SetOpClause) (c : Context) :
    Follows setOpHeads (d.write (setOpList d ops c).1) := by
  cases ops with
  | nil => exact follows_nil setOpHeads
  | cons op ops =>
    have hhead : op.opType.sql ∈ setOpHeads := by cases op.opType <;> decide
    rw [setOpList_cons]
    simp only [write_append, write_lit, List.append_assoc]
    exact follows_word hhead _

theorem map_columnName (columns : List String) :
    (columns.map fun c => (⟨"", c⟩ : ColumnRef)).map ColumnRef.columnName = columns := by
  rw [List.map_map]
  exact List.map_id columns

/-- The further queries are read until something else follows. -/
theorem takes_setOpLoop {ops : List SetOpClause} (hops : ∀ op ∈ ops, op.Readable d)
    (hunlike : setOpHeads.all (Unlike · after) = true) (hwhere : Unlike " WHERE " after = true)
    (hafter : AllClauses after = true) (c : Context)
    (hslots : (ops.flatMap SetOpClause.trees).flatMap ExprNode.leaves <+:
      slots.drop c.paramCounter) (hrest : Follows after rest) {n : ℕ} (hn : ops.length ≤ n) :
    Takes (readSetOpLoop d slots n c.paramCounter) (d.write (setOpList d ops c).1)
      (ops.map (SetOpClause.inDialect d),
        c.paramCounter + ((ops.flatMap SetOpClause.trees).flatMap ExprNode.leaves).length)
      rest := by
  induction ops generalizing c n with
  | nil =>
    cases n with
    | zero => exact takes_pure _ rest
    | succ n =>
      exact Takes.orElse_right (run_bind_eq_none (run_readSetOpType hrest hunlike))
        (takes_pure _ rest)
  | cons op ops ih =>
    obtain ⟨n, rfl⟩ := Nat.exists_eq_add_one_of_ne_zero (Nat.ne_zero_of_lt hn)
    have hread := hops op List.mem_cons_self
    have hops' : ∀ op ∈ ops, op.Readable d := fun op hop => hops op (List.mem_cons_of_mem _ hop)
    rw [List.flatMap_cons, List.flatMap_append] at hslots
    obtain ⟨hop, htail⟩ := prefix_drop_append hslots
    have hmore := ih hops' (c.record (op.trees.flatMap ExprNode.leaves)) htail
      (Nat.le_of_succ_le_succ hn)
    have hnext : Follows (setOpHeads ++ after)
        (d.write (setOpList d ops (c.record (op.trees.flatMap ExprNode.leaves))).1 ++ rest) :=
      (begins_setOpList ops _).append hrest
    have hclauses : AllClauses (setOpHeads ++ after) = true := by
      rw [AllClauses, List.all_append, Bool.and_eq_true]
      exact ⟨by decide, hafter⟩
    have hunlike' : Unlike " WHERE " (setOpHeads ++ after) = true := by
      rw [Unlike, List.all_append, Bool.and_eq_true]
      exact ⟨by decide, hwhere⟩
    have hcondition : ReadBy d slots (whereClause d op.where_) _ _ _ _ _ :=
      readBy_condition hread (by decide) hunlike' hclauses
    have hselect : Stops d (d.write (whereClause d op.where_ c).1 ++
        (d.write (setOpList d ops (c.record (op.trees.flatMap ExprNode.leaves))).1 ++ rest)) := by
      refine ((hcondition.begins c).append hnext).stops ?_
      rw [AllClauses, List.all_append, Bool.and_eq_true]
      exact ⟨by decide, hclauses⟩
    have htype : ∀ xs, Takes readSetOpType op.opType.sql.toList op.opType
        (("SELECT ".toList ++ xs) ++ rest) := by
      intro xs
      rw [List.append_assoc]
      exact takes_setOpType op.opType (xs ++ rest)
    have hfrom := takes_selectFrom (isSelectList_columns op.columns) op.isDistinct op.tableName
      hselect
    rw [← List.append_assoc] at hfrom
    have hresult := hmore.map fun x =>
      ((⟨op.opType, op.tableName, op.columns, op.where_.map (ExprNode.inDialect d),
        op.isDistinct⟩ : SetOpClause) :: x.1, x.2)
    rw [setOpList_cons]
    simp only [write_append, write_lit, List.append_assoc]
    refine Takes.orElse ((htype _).bind (takes_exactly_bind (Takes.bind hfrom
      (Takes.bind (hcondition.takes c _ hop hnext) ?_))))
    rw [map_columnName]
    simpa [SetOpClause.inDialect, SetOpClause.trees, Nat.add_assoc] using hresult

theorem length_setOpList (ops : List SetOpClause) (c : Context) :
    ops.length ≤ (d.write (setOpList d ops c).1).length := by
  induction ops generalizing c with
  | nil => exact Nat.zero_le _
  | cons op ops ih =>
    have htail := ih (c.record (op.trees.flatMap ExprNode.leaves))
    have hselect : "SELECT ".toList.length = 7 := rfl
    rw [setOpList_cons]
    simp only [write_append, write_lit, List.length_append, List.length_cons, hselect]
    omega

/-- The further queries of a chain are read back. -/
theorem readBy_setOps {ops : List SetOpClause} (hops : ∀ op ∈ ops, op.Readable d)
    (hunlike : setOpHeads.all (Unlike · after) = true) (hwhere : Unlike " WHERE " after = true)
    (hafter : AllClauses after = true) :
    ReadBy d slots (setOpList d ops) (readSetOps d slots) (ops.map (SetOpClause.inDialect d))
      ((ops.flatMap SetOpClause.trees).flatMap ExprNode.leaves) setOpHeads after := by
  have hwrites : Writes True [] (setOpList d ops) _ := writes_setOpList ops
  obtain ⟨text, hrecords⟩ := hwrites.records
  refine ⟨fun c => ?_, fun c => begins_setOpList ops c, fun c rest hslots hrest => ?_⟩
  · rw [hrecords, List.flatMap_map]
    rfl
  · have hlength : ops.length ≤ (d.write (setOpList d ops c).1 ++ rest).length := by
      rw [List.length_append]
      exact (length_setOpList ops c).trans (Nat.le_add_right _ _)
    exact takes_setOpLoop hops hunlike hwhere hafter c hslots hrest hlength

/-- An ordering of a set operation as one of a query : a column goes without its table. -/
def setOpTerm : OrderByExpr → OrderByExpr
  | (.columnRef ref, dir) => (.columnRef ⟨"", ref.columnName⟩, dir)
  | o => o

theorem setOpOrderKey_eq (o : OrderByExpr) : setOpOrderKey d o.1 = visit d (setOpTerm o).1 := by
  obtain ⟨e, dir⟩ := o
  cases e with
  | columnRef ref =>
    change (pure (d.quoteId ref.columnName) : Gen Text) = pure (columnSql d ⟨"", ref.columnName⟩)
    rfl
  | _ => rfl

theorem setOpOrderBy_eq (os : List OrderByExpr) :
    setOpOrderBy d os = visitOrderBy d (os.map setOpTerm) := by
  induction os with
  | nil => rfl
  | cons o os ih =>
    obtain ⟨e, dir⟩ := o
    obtain ⟨e', hterm⟩ : ∃ e', setOpTerm (e, dir) = (e', dir) := by
      cases e <;> exact ⟨_, rfl⟩
    have hkey : setOpOrderKey d e = visit d e' := by
      have h := setOpOrderKey_eq (d := d) (e, dir)
      rwa [hterm] at h
    funext c
    rw [List.map_cons, hterm]
    cases os with
    | nil =>
      calc setOpOrderBy d [(e, dir)] c
          = ((setOpOrderKey d e c).1 ++ lit dir.sql ++ [] ++ [], (setOpOrderKey d e c).2) := rfl
        _ = ((visit d e' c).1 ++ lit dir.sql, (visit d e' c).2) := by
          rw [hkey, List.append_nil, List.append_nil]
        _ = visitOrderBy d ([(e', dir)]) c := rfl
    | cons o' os =>
      obtain ⟨f, dir'⟩ := o'
      obtain ⟨f', hterm'⟩ : ∃ f', setOpTerm (f, dir') = (f', dir') := by
        cases f <;> exact ⟨_, rfl⟩
      rw [List.map_cons, hterm'] at ih ⊢
      calc setOpOrderBy d ((e, dir) :: (f, dir') :: os) c
          = ((setOpOrderKey d e c).1 ++ lit dir.sql ++ lit ", " ++
              (setOpOrderBy d ((f, dir') :: os) (setOpOrderKey d e c).2).1,
              (setOpOrderBy d ((f, dir') :: os) (setOpOrderKey d e c).2).2) := rfl
        _ = ((visit d e' c).1 ++ lit dir.sql ++ lit ", " ++
              (visitOrderBy d ((f', dir') :: os.map setOpTerm) (visit d e' c).2).1,
              (visitOrderBy d ((f', dir') :: os.map setOpTerm) (visit d e' c).2).2) := by
          rw [hkey, ih]
        _ = visitOrderBy d ((e', dir) :: (f', dir') :: os.map setOpTerm) c := rfl

end SetOperations

/-! ## Queries for rows -/

/-- A query for rows with all its clauses. It has a restriction before its columns, or at the
end. -/
structure RowQuery where
  first : Restriction
  isDistinct : Bool
  columns : List ColumnRef
  tableName : String
  joins : List JoinClause
  where_ : Option ExprNode
  groupBy : List ExprNode
  having : Option ExprNode
  ops : List SetOpClause
  orderBy : List OrderByExpr
  last : Restriction

section Readers

variable (d : Dialect) (slots : List ParameterSlot)

/-- The restriction at the end, which has no parameters. -/
def readLast (k : ℕ) : Reader Char (Restriction × ℕ) := do
  let last ← readPaging d
  return (last, k)

/-- What follows the table of a query. -/
def readRowClauses := readBoth (readJoins d slots) (readBoth (readCondition d slots " WHERE ")
  (readBoth (readGroupBy d slots) (readBoth (readCondition d slots " HAVING ")
    (readBoth (readSetOps d slots) (readBoth (readOrderBy d slots) (readLast d))))))

/-- A query for rows. -/
def readRowQuery : Reader Char RowQuery := do
  exactly "SELECT ".toList
  let first ← readFirst d
  let (isDistinct, columns, tableName) ← readSelectFrom d
  let ((joins, where_, groupBy, having, ops, orderBy, last), _) ← readRowClauses d slots 0
  atEnd
  return ⟨first, isDistinct, columns, tableName, joins, where_, groupBy, having, ops, orderBy, last⟩

end Readers

section RowQueries

variable {d : Dialect} {slots : List ParameterSlot} {limit offset : Option ℕ} {paging : String}

theorem follows_limitThenOffset {unlimited : String}
    (h : Follows [" LIMIT ", " OFFSET "] unlimited.toList) (limit offset : Option ℕ) :
    Follows [" LIMIT ", " OFFSET "]
      (Dialect.limitThenOffset unlimited limit offset).toList := by
  have hlimit : ∀ n : ℕ, Follows [" LIMIT ", " OFFSET "] (" LIMIT " ++ n.repr).toList := by
    intro n
    rw [String.toList_append]
    exact follows_word (by decide) _
  have hoffset : ∀ m : ℕ, Follows [" LIMIT ", " OFFSET "] (" OFFSET " ++ m.repr).toList := by
    intro m
    rw [String.toList_append]
    exact follows_word (by decide) _
  have hmore : ∀ {s t : String}, Follows [" LIMIT ", " OFFSET "] s.toList →
      Follows [" LIMIT ", " OFFSET "] t.toList →
      Follows [" LIMIT ", " OFFSET "] (s ++ t).toList := by
    intro s t hs ht
    rw [String.toList_append]
    exact (hs.append ht).mono (by simp)
  cases limit with
  | none =>
    cases offset with
    | none => exact follows_nil _
    | some m =>
      rw [Dialect.limitThenOffset, String.append_assoc]
      exact hmore h (hoffset m)
  | some n =>
    cases offset with
    | none => exact hlimit n
    | some m =>
      rw [Dialect.limitThenOffset, String.append_assoc]
      exact hmore (hlimit n) (hoffset m)

theorem follows_paging (h : d.limitOffset limit offset = .ok paging) :
    Follows [" LIMIT ", " OFFSET "] paging.toList := by
  have hfetch : Follows [" LIMIT ", " OFFSET "] (Dialect.fetchNext limit offset).toList := by
    rw [toList_fetchNext]
    cases hoffset : (Dialect.restriction .oracle limit offset).offset with
    | none =>
      cases limit with
      | none => exact follows_nil _
      | some n => cases offset <;> contradiction
    | some m =>
      rw [boundText, List.append_assoc]
      exact follows_word (by decide) _
  cases d with
  | sqlite | mysql =>
    injection h with h
    subst h
    exact follows_limitThenOffset (Or.inr ⟨" LIMIT ", by decide, by decide⟩) limit offset
  | postgres =>
    injection h with h
    subst h
    exact follows_limitThenOffset (follows_nil _) limit offset
  | mssql =>
    rw [Dialect.limitOffset] at h
    split at h
    · contradiction
    · injection h with h
      subst h
      exact hfetch
  | informix =>
    injection h with h
    subst h
    exact follows_nil _
  | oracle =>
    injection h with h
    subst h
    exact hfetch

/-- The paging of a dialect is read back. -/
theorem readBy_last (h : d.limitOffset limit offset = .ok paging) :
    ReadBy d slots (pure (lit paging)) (readLast d) (d.lastRestriction limit offset) []
      [" LIMIT ", " OFFSET "] [] := by
  refine readBy_text paging (follows_paging h) fun rest hrest => ?_
  obtain rfl : rest = [] := by simpa [Follows] using hrest
  by_cases hd : d = .informix
  · subst hd
    injection h with h
    subst h
    exact takes_pure _ []
  · have hlast : d.lastRestriction limit offset = d.restriction limit offset := by
      cases d with
      | informix => contradiction
      | _ => rfl
    rw [hlast]
    exact takes_paging hd h

/-- The clauses of a query for rows after its table. -/
def rowClauses (d : Dialect) (joins : List JoinClause) (where_ : Option ExprNode)
    (groupBy : List ExprNode) (having : Option ExprNode) (ops : List SetOpClause)
    (orderBy : List OrderByExpr) (limit offset : Option ℕ) (paging : String) : Gen Text :=
  (joinList d joins).both ((whereClause d where_).both ((groupByClause d groupBy).both
    ((havingClause d having).both ((setOpList d ops).both
      ((orderByClause d orderBy limit offset paging).both (pure (lit paging)))))))

/-- The words that a clause after the table can begin with. -/
def rowHeads : List String :=
  joinHeads ++ ([" WHERE "] ++ ([" GROUP BY "] ++ ([" HAVING "] ++ (setOpHeads ++
    ([" ORDER BY "] ++ [" LIMIT ", " OFFSET "])))))

/-- The clauses are read back in their order. -/
theorem readBy_rowClauses {joins : List JoinClause} {where_ having : Option ExprNode}
    {groupBy : List ExprNode} {ops : List SetOpClause} {orderBy : List OrderByExpr}
    (hjoins : ∀ j ∈ joins, j.Readable d) (hwhere : ∀ n ∈ where_, n.Readable d)
    (hgroup : ∀ n ∈ groupBy, n.Readable d) (hhaving : ∀ n ∈ having, n.Readable d)
    (hops : ∀ op ∈ ops, op.Readable d) (horder : ∀ o ∈ orderBy, o.1.Readable d)
    (h : d.limitOffset limit offset = .ok paging) :
    ReadBy d slots (rowClauses d joins where_ groupBy having ops orderBy limit offset paging)
      (readRowClauses d slots)
      (joins.map (JoinClause.inDialect d), where_.map (ExprNode.inDialect d),
        groupBy.map (ExprNode.inDialect d), having.map (ExprNode.inDialect d),
        ops.map (SetOpClause.inDialect d), orderBy.map fun o => (o.1.inDialect d, o.2),
        d.lastRestriction limit offset)
      ((joins.map JoinClause.onCondition).flatMap ExprNode.leaves ++
        (where_.toList.flatMap ExprNode.leaves ++ (groupBy.flatMap ExprNode.leaves ++
          (having.toList.flatMap ExprNode.leaves ++
            ((ops.flatMap SetOpClause.trees).flatMap ExprNode.leaves ++
              ((orderBy.map Prod.fst).flatMap ExprNode.leaves ++ []))))))
      rowHeads [] := by
  refine ReadBy.both (readBy_joins hjoins (by decide) (by decide)) ?_
  refine ReadBy.both (readBy_condition hwhere (by decide) (by decide) (by decide)) ?_
  refine ReadBy.both (readBy_groupBy hgroup (by decide) (by decide)) ?_
  refine ReadBy.both (readBy_condition hhaving (by decide) (by decide) (by decide)) ?_
  refine ReadBy.both (readBy_setOps hops (by decide) (by decide) (by decide)) ?_
  exact ReadBy.both (readBy_orderBy horder limit offset paging (by decide) (by decide))
    (readBy_last h)

/-- The text of a query for rows. -/
def rowText (d : Dialect) (limit offset : Option ℕ) (isDistinct : Bool) (columns : Text)
    (tableName : String) (clauses : Gen Text) : Gen Text := do
  let clausesStr ← clauses
  return lit "SELECT " ++ lit (d.selectPrefixLimitOffset limit offset) ++
    (distinctWord isDistinct ++ columns ++ lit " FROM " ++ d.quoteId tableName) ++ clausesStr

theorem generateSelect_text (h : d.limitOffset limit offset = .ok paging) (tableName : String)
    (columns : List String) (where_ : Option ExprNode) (orderBy : List OrderByExpr)
    (isDistinct : Bool) (groupBy : List ExprNode) (having : Option ExprNode) :
    generateSelect d tableName columns where_ orderBy limit offset isDistinct groupBy having =
      .ok (.of (rowText d limit offset isDistinct (selectList d "*" columns) tableName
        (rowClauses d [] where_ groupBy having [] orderBy limit offset paging))) := by
  unfold generateSelect generateCteSelect
  rw [h]
  have happend : ∀ front from_ whereStr groupStr havingStr orderStr : Text,
      [] ++ lit "SELECT " ++ front ++ from_ ++ whereStr ++ groupStr ++ havingStr ++ orderStr ++
          lit paging =
        lit "SELECT " ++ front ++ from_ ++
          ([] ++ (whereStr ++ (groupStr ++ (havingStr ++ ([] ++ (orderStr ++ lit paging)))))) := by
    intro front from_ whereStr groupStr havingStr orderStr
    simp only [List.append_assoc, List.nil_append]
  exact congrArg Except.ok (congrArg GeneratedSql.of (funext fun c =>
    Prod.ext (happend _ _ _ _ _ _) rfl))

/-- A join has the text of a query without groups. -/
theorem generateJoinedSelect_text (h : d.limitOffset limit offset = .ok paging)
    (primaryTable : String) (primaryColumns : List String) (joins : List JoinClause)
    (joined : List (String × List String)) (where_ : Option ExprNode)
    (orderBy : List OrderByExpr) (isDistinct : Bool) :
    generateJoinedSelect d primaryTable primaryColumns joins joined where_ orderBy limit offset
        isDistinct =
      .ok (.of (rowText d limit offset isDistinct
        (joinedColumns d ((primaryTable, primaryColumns) :: joined)) primaryTable
        (rowClauses d joins where_ [] none [] orderBy limit offset paging))) := by
  unfold generateJoinedSelect
  rw [h]
  have happend : ∀ front distinctStr columns table joinStr whereStr orderStr : Text,
      lit "SELECT " ++ front ++ distinctStr ++ columns ++ lit " FROM " ++ table ++ joinStr ++
          whereStr ++ orderStr ++ lit paging =
        lit "SELECT " ++ front ++ (distinctStr ++ columns ++ lit " FROM " ++ table) ++
          (joinStr ++ (whereStr ++ ([] ++ ([] ++ ([] ++ (orderStr ++ lit paging)))))) := by
    intro front distinctStr columns table joinStr whereStr orderStr
    simp only [List.append_assoc, List.nil_append]
  exact congrArg Except.ok (congrArg GeneratedSql.of (funext fun c =>
    Prod.ext (happend _ _ _ _ _ _ _) rfl))

/-- A set operation has the text of its first query with the operators after it. -/
theorem generateSetOperation_text (h : d.limitOffset limit offset = .ok paging)
    (baseTable : String) (baseColumns : List String) (baseWhere : Option ExprNode)
    (baseDistinct : Bool) (ops : List SetOpClause) (orderBy : List OrderByExpr) :
    generateSetOperation d baseTable baseColumns baseWhere baseDistinct ops orderBy limit offset =
      .ok (.of (rowText d limit offset baseDistinct (selectList d "*" baseColumns) baseTable
        (rowClauses d [] baseWhere [] none ops (orderBy.map setOpTerm) limit offset
          paging))) := by
  unfold generateSetOperation
  rw [h, setOpOrderBy_eq]
  have happend : ∀ front from_ whereStr opStr orderStr : Text,
      lit "SELECT " ++ front ++ from_ ++ whereStr ++ opStr ++ orderStr ++ lit paging =
        lit "SELECT " ++ front ++ from_ ++
          ([] ++ (whereStr ++ ([] ++ ([] ++ (opStr ++ (orderStr ++ lit paging)))))) := by
    intro front from_ whereStr opStr orderStr
    simp only [List.append_assoc, List.nil_append]
  cases orderBy <;> exact congrArg Except.ok (congrArg GeneratedSql.of (funext fun c =>
    Prod.ext (happend _ _ _ _ _) rfl))

/-- Clauses at the end of a text are read with the slots that they record. -/
theorem ReadBy.atEnd {α : Type} {clauses : Gen Text} {p : ℕ → Reader Char (α × ℕ)} {a : α}
    {heads : List String} (h : ReadBy d slots clauses p a slots heads [])
    (hheads : AllClauses heads = true) :
    (clauses (.start 0)).2.slots = slots ∧
      Takes (p 0) (d.write (clauses (.start 0)).1) (a, 0 + slots.length) [] ∧
      Stops d (d.write (clauses (.start 0)).1 ++ []) := by
  refine ⟨?_, h.takes (.start 0) [] (List.prefix_refl slots) (follows_nil []), ?_⟩
  · rw [h.records]
    rfl
  · rw [List.append_nil]
    exact (h.begins (.start 0)).stops hheads

/-- The text of a query for rows is read as the query. -/
theorem takes_rowText (isDistinct : Bool) {columns : Text} {refs : List ColumnRef}
    (hcolumns : IsSelectList d columns refs) (tableName : String) {clauses : Gen Text}
    {joins : List JoinClause} {where_ having : Option ExprNode} {groupBy : List ExprNode}
    {ops : List SetOpClause} {orderBy : List OrderByExpr} {last : Restriction}
    (hclauses : ReadBy d slots clauses (readRowClauses d slots)
      (joins, where_, groupBy, having, ops, orderBy, last) slots rowHeads []) :
    let r := GeneratedSql.of (rowText d limit offset isDistinct columns tableName clauses)
    r.slots = slots ∧ Takes (readRowQuery d slots) (d.write r.sql)
      ⟨d.firstRestriction limit offset, isDistinct, refs, tableName, joins, where_, groupBy,
        having, ops, orderBy, last⟩ [] := by
  intro r
  obtain ⟨hslots, htakes, hstops⟩ := hclauses.atEnd (by decide)
  have hsql : r.sql = lit "SELECT " ++ lit (d.selectPrefixLimitOffset limit offset) ++
      (distinctWord isDistinct ++ columns ++ lit " FROM " ++ d.quoteId tableName) ++
      (clauses (.start 0)).1 := rfl
  have hfrom := takes_selectFrom hcolumns isDistinct tableName hstops
  have hhead : ∀ c ∈ ['S', 'F'], ((d.write (distinctWord isDistinct ++ columns ++ lit " FROM " ++
      d.quoteId tableName) ++ d.write (clauses (.start 0)).1) ++ []).head? ≠ some c := by
    intro c hc
    rw [List.append_nil]
    exact head_selectFrom hcolumns isDistinct tableName hc
  refine ⟨hslots, ?_⟩
  rw [hsql, write_append, write_append, write_append, write_lit, write_lit, List.append_assoc,
    List.append_assoc]
  refine takes_exactly_bind ((takes_first d limit offset ?_ ?_).bind ?_)
  · exact dropPrefix?_of_head rfl (hhead 'S' (by decide))
  · exact dropPrefix?_of_head rfl (hhead 'F' (by decide))
  · exact hfrom.bind (Takes.bind_nil htakes rfl)

end RowQueries

end CppLinq
