import CppLinq.RowReading

/-!
# Statements read from their texts

What a server reads in the text of a statement (`readStatement`) is the statement which the
generator was asked for, with the functions named as the dialect names them
(`statement_read`).
-/

namespace CppLinq

open Reader

/-! ## Readers -/

/-- A statement other than one that inserts. -/
inductive Statement
  | rows (q : RowQuery)
  | count (distinctColumn : Option String) (tableName : String) (joins : List JoinClause)
      (where_ : Option ExprNode)
  | aggregate (func column tableName : String) (where_ : Option ExprNode)
  | update (tableName : String) (assignments : List AssignExpr) (where_ : Option ExprNode)
  | delete (tableName : String) (where_ : Option ExprNode)

section Readers

variable (d : Dialect) (slots : List ParameterSlot)

/-- A query for rows, as a statement. -/
def readRows : Reader Char Statement := do
  let q ← readRowQuery d slots
  return .rows q

/-- What is counted. -/
def readCounted : Reader Char (Option String) :=
  (do exactly "*".toList; return none) <|> do
    exactly "DISTINCT ".toList
    let c ← readName d
    return some c

/-- A `COUNT`, of a table or of joined tables. -/
def readCountQuery : Reader Char Statement := do
  exactly "SELECT COUNT(".toList
  let distinctColumn ← readCounted d
  exactly ") FROM ".toList
  let tableName ← readName d
  let ((joins, where_), _) ← readBoth (readJoins d slots) (readCondition d slots " WHERE ") 0
  atEnd
  return .count distinctColumn tableName joins where_

/-- The functions of an aggregate. -/
def aggregateFunctions : List String :=
  ["AVG", "SUM", "MIN", "MAX"]

/-- One of the words. -/
def readOneOf : List String → Reader Char String
  | [] => failure
  | w :: ws => (do exactly w.toList; return w) <|> readOneOf ws

/-- An aggregate of a column. -/
def readAggregate : Reader Char Statement := do
  exactly "SELECT ".toList
  let func ← readOneOf aggregateFunctions
  exactly "(".toList
  let column ← (do exactly "*".toList; return "*") <|> readName d
  exactly ") FROM ".toList
  let tableName ← readName d
  let (where_, _) ← readCondition d slots " WHERE " 0
  atEnd
  return .aggregate func column tableName where_

/-- The assignment that an equality in a `SET` list is. -/
def assignment? : ExprNode → Option AssignExpr
  | .binary (.columnRef ref) .eq value => some ⟨ref, value⟩
  | _ => none

/-- Assignments with commas between them, read as the arguments of a call. -/
def readAssignments (k : ℕ) : Reader Char (List AssignExpr × ℕ) := do
  let (es, k) ← readTrees d slots k
  match es.mapM assignment? with
  | some as => return (as, k)
  | none => failure

/-- An `UPDATE` with a condition. -/
def readUpdateWhere : Reader Char Statement := do
  exactly "UPDATE ".toList
  let tableName ← readName d
  exactly " SET ".toList
  let ((assignments, where_), _) ←
    readBoth (readAssignments d slots) (readCondition d slots " WHERE ") 0
  atEnd
  return .update tableName assignments where_

/-- A `DELETE` with a condition. -/
def readDeleteWhere : Reader Char Statement := do
  exactly "DELETE FROM ".toList
  let tableName ← readName d
  let (where_, _) ← readCondition d slots " WHERE " 0
  atEnd
  return .delete tableName where_

/-- What a server reads in a text, whose parameters are the values of `slots`. -/
def readStatement (cs : List Char) : Option Statement :=
  ((readRows d slots <|> readCountQuery d slots <|> readAggregate d slots <|>
    readUpdateWhere d slots <|> readDeleteWhere d slots).run cs).map Prod.fst

end Readers

section Conditions

variable {d : Dialect} {slots : List ParameterSlot} {rest : List Char}

theorem run_exactly_of_head {word text : List Char} {c : Char} (hword : word.head? = some c)
    (htext : text.head? ≠ some c) : (exactly word).run text = none :=
  run_exactly_eq_none (dropPrefix?_of_head hword htext)

/-- What is no select list is no query for rows. -/
theorem run_readRows {text : List Char} (hskip : text.dropPrefix? "SKIP ".toList = none)
    (hfirst : text.dropPrefix? "FIRST ".toList = none)
    (hhead : ∀ c ∈ ['D', '*', d.quotes.opening], text.head? ≠ some c) :
    (readRows d slots).run ("SELECT ".toList ++ text) = none := by
  have hdistinct : Takes readDistinct [] false text := by
    have h := takes_distinct (d := d) false (hhead 'D' (by simp))
    exact h
  have hcolumn : (readColumn d).run text = none := by
    refine run_bind_eq_none ?_
    have hname : readDelimited d.quotes text = none := by
      cases text with
      | nil => rfl
      | cons c cs =>
        have hc : c ≠ d.quotes.opening := fun h =>
          hhead d.quotes.opening (by simp) (congrArg some h)
        rw [readDelimited, if_neg hc]
    unfold readName
    rw [StateT.run, hname]
    rfl
  have hcolumns : (readColumns d).run text = none :=
    run_orElse_eq_none (run_bind_eq_none (run_exactly_of_head rfl (hhead '*' (by simp))))
      (run_sepBy_eq_none hcolumn)
  have hfirst' := takes_first d none none hskip hfirst
  rw [Dialect.selectPrefixLimitOffset_none] at hfirst'
  have hselect : (readSelectFrom d).run ([] ++ text) = none :=
    hdistinct.run_bind_eq_none (run_bind_eq_none hcolumns)
  have hrow : (readRowQuery d slots).run ("SELECT ".toList ++ text) = none :=
    (takes_exactly "SELECT ".toList text).run_bind_eq_none
      (hfirst'.run_bind_eq_none (run_bind_eq_none hselect))
  exact run_bind_eq_none hrow

/-- What is counted is read back. -/
theorem takes_counted (column : Option String) :
    Takes (readCounted d) (d.write (match column with
      | some c => lit "DISTINCT " ++ d.quoteId c
      | none => lit "*")) column (")".toList ++ rest) := by
  cases column with
  | none => exact ((takes_exactly "*".toList _).map fun _ => (none : Option String)).orElse
  | some c =>
    rw [write_append, write_lit]
    refine Takes.orElse_right (run_bind_eq_none (run_exactly_eq_none rfl)) (takes_exactly_bind ?_)
    exact (takes_name c (stops_append rfl (by decide) rest)).map some

theorem takes_oneOf {w : String} (hw : w ∈ aggregateFunctions) (rest : List Char) :
    Takes (readOneOf aggregateFunctions) w.toList w rest := by
  have hword : ∀ v : String, Takes (do exactly v.toList; return v) v.toList v rest :=
    fun v => (takes_exactly v.toList rest).map fun _ => v
  simp only [aggregateFunctions, List.mem_cons, List.not_mem_nil, or_false] at hw
  rcases hw with rfl | rfl | rfl | rfl
  · exact (hword "AVG").orElse
  · exact Takes.orElse_right (run_bind_eq_none (run_exactly_eq_none rfl)) (hword "SUM").orElse
  · exact Takes.orElse_right (run_bind_eq_none (run_exactly_eq_none rfl))
      (Takes.orElse_right (run_bind_eq_none (run_exactly_eq_none rfl)) (hword "MIN").orElse)
  · exact Takes.orElse_right (run_bind_eq_none (run_exactly_eq_none rfl))
      (Takes.orElse_right (run_bind_eq_none (run_exactly_eq_none rfl))
        (Takes.orElse_right (run_bind_eq_none (run_exactly_eq_none rfl)) (hword "MAX").orElse))

/-- What an aggregate is taken of. -/
theorem takes_aggregated (columnName : String) :
    Takes ((do exactly "*".toList; return "*") <|> readName d)
      (d.write (if columnName = "*" then lit "*" else d.quoteId columnName)) columnName
      (")".toList ++ rest) := by
  split
  · rename_i hstar
    rw [hstar, write_lit]
    exact ((takes_exactly "*".toList _).map fun _ => "*").orElse
  · refine Takes.orElse_right (run_bind_eq_none (run_exactly_of_head (c := '*') rfl ?_))
      (takes_name columnName (stops_append rfl (by decide) rest))
    rw [write_quoteId_head]
    cases d <;> decide

/-- A condition alone. -/
theorem readBy_where {where_ : Option ExprNode} (hwhere : ∀ n ∈ where_, n.Readable d) :
    ReadBy d slots (whereClause d where_) (readCondition d slots " WHERE ")
      (where_.map (ExprNode.inDialect d)) (where_.toList.flatMap ExprNode.leaves) [" WHERE "] [] :=
  readBy_condition hwhere (by decide) (by decide) (by decide)

/-- Joins and a condition, as a count has them. -/
theorem readBy_joinsWhere {joins : List JoinClause} {where_ : Option ExprNode}
    (hjoins : ∀ j ∈ joins, j.Readable d) (hwhere : ∀ n ∈ where_, n.Readable d) :
    ReadBy d slots ((joinList d joins).both (whereClause d where_))
      (readBoth (readJoins d slots) (readCondition d slots " WHERE "))
      (joins.map (JoinClause.inDialect d), where_.map (ExprNode.inDialect d))
      ((joins.map JoinClause.onCondition).flatMap ExprNode.leaves ++
        where_.toList.flatMap ExprNode.leaves) (joinHeads ++ [" WHERE "]) [] :=
  ReadBy.both (readBy_joins hjoins (by decide) (by decide))
    (readBy_condition hwhere (by decide) (by decide) (by decide))

end Conditions

/-! ## Assignments -/

section Assignments

variable {d : Dialect} {slots : List ParameterSlot} {after : List String} {rest : List Char}

/-- An assignment as the equality that its text is. -/
def AssignExpr.equality (d : Dialect) (a : AssignExpr) : ExprNode :=
  .binary (.columnRef ⟨"", assignedColumn a.column⟩) .eq (a.value.inDialect d)

/-- The tokens of assignments, whose first value has the number `k`. -/
def assignmentTokens (d : Dialect) : List AssignExpr → ℕ → List Token
  | [], _ => []
  | [a], k => .column "" (assignedColumn a.column) :: .op .eq :: tokens d a.value k
  | a :: b :: as, k => .column "" (assignedColumn a.column) :: .op .eq :: (tokens d a.value k ++
      .comma :: assignmentTokens d (b :: as) (k + a.value.leaves.length))

theorem lexes_assignment {a : AssignExpr} (ha : Spelled d a.value) (c : Context) :
    Lexes d.quotes c.paramCounter (d.write (d.quoteId (assignedColumn a.column) ++ lit " = " ++
      (visit d a.value c).1)) (c.paramCounter + a.value.leaves.length)
      (.column "" (assignedColumn a.column) :: .op .eq :: tokens d a.value c.paramCounter) := by
  have hname := lexes_name (q := d.quotes) (k := c.paramCounter) (assignedColumn a.column).toList
  rw [String.ofList_toList, ← write_quoteId] at hname
  have h := (hname.append_reads (reads_compareOp d .eq _) rfl).append_lexes (ha c)
  rw [write_append, write_append, write_lit]
  exact h

/-- Assignments are lexed into their tokens. -/
theorem lexes_assignments : ∀ {as : List AssignExpr}, as ≠ [] →
    (∀ a ∈ as, Spelled d a.value) → ∀ c : Context,
    Lexes d.quotes c.paramCounter (d.write (assignmentList d as c).1)
      (c.paramCounter + ((as.map AssignExpr.value).flatMap ExprNode.leaves).length)
      (assignmentTokens d as c.paramCounter)
  | [], h, _, _ => by contradiction
  | [a], _, has, c => by
    have hrun : (assignmentList d [a] c).1 = d.quoteId (assignedColumn a.column) ++ lit " = " ++
        (visit d a.value c).1 ++ [] ++ [] := rfl
    rw [hrun, List.append_nil, List.append_nil]
    simpa [assignmentTokens] using lexes_assignment (has a List.mem_cons_self) c
  | a :: b :: as, _, has, c => by
    have hrun : (assignmentList d (a :: b :: as) c).1 = d.quoteId (assignedColumn a.column) ++
        lit " = " ++ (visit d a.value c).1 ++ lit ", " ++
          (assignmentList d (b :: as) (c.record a.value.leaves)).1 := by
      rw [← visit_snd d a.value]
      rfl
    have hcomma : ∀ k, Reads d.quotes k ", ".toList k [.comma] := by
      cases d <;> exact fun k out => rfl
    have hrest := lexes_assignments (List.cons_ne_nil b as) (fun o ho => has o (by simp [ho]))
      (c.record a.value.leaves)
    have h := ((lexes_assignment (has a List.mem_cons_self) c).append_reads (hcomma _)
      rfl).append_lexes hrest
    rw [hrun, write_append, write_append]
    simpa [assignmentTokens, Nat.add_assoc] using h

theorem derives_assignment {a : AssignExpr} {k : ℕ} (ha : Derived d slots a.value)
    (hfit : a.value.FitsPrimary) (hk : a.value.leaves <+: slots.drop k) :
    Derives (predicateNodes slots) .disj
      (.column "" (assignedColumn a.column) :: .op .eq :: tokens d a.value k) [a.equality d] :=
  .disj (.conj (.neg (.cmp (.pred (.column "" (assignedColumn a.column))) (ha.prim hk hfit))))

/-- Assignments and more assignments after them. -/
theorem derives_moreAssignments {us : List Token} {es : List ExprNode} :
    ∀ {as : List AssignExpr} {k : ℕ}, as ≠ [] →
    (∀ a ∈ as, Derived d slots a.value ∧ a.value.FitsPrimary) →
    (as.map AssignExpr.value).flatMap ExprNode.leaves <+: slots.drop k →
    Derives (predicateNodes slots) .items us es →
    Derives (predicateNodes slots) .items (us ++ .comma :: assignmentTokens d as k)
      (es ++ as.map (AssignExpr.equality d))
  | [], _, h, _, _, _ => by contradiction
  | [a], k, _, has, hk, h => by
    obtain ⟨ha, hfit⟩ := has a List.mem_cons_self
    rw [List.map_singleton, List.flatMap_singleton] at hk
    exact .items h (derives_assignment ha hfit hk)
  | a :: b :: as, k, _, has, hk, h => by
    obtain ⟨ha, hfit⟩ := has a List.mem_cons_self
    rw [List.map_cons, List.flatMap_cons] at hk
    obtain ⟨hka, hk⟩ := prefix_drop_append hk
    have hrest := derives_moreAssignments (List.cons_ne_nil b as)
      (fun o ho => has o (by simp [ho])) hk (.items h (derives_assignment ha hfit hka))
    simpa [assignmentTokens] using hrest

/-- The grammar derives assignments as equalities. -/
theorem derives_assignments {as : List AssignExpr} {k : ℕ} (hne : as ≠ [])
    (has : ∀ a ∈ as, Derived d slots a.value ∧ a.value.FitsPrimary)
    (hk : (as.map AssignExpr.value).flatMap ExprNode.leaves <+: slots.drop k) :
    Derives (predicateNodes slots) .items (assignmentTokens d as k)
      (as.map (AssignExpr.equality d)) := by
  cases as with
  | nil => contradiction
  | cons a as =>
    obtain ⟨ha, hfit⟩ := has a List.mem_cons_self
    rw [List.map_cons, List.flatMap_cons] at hk
    obtain ⟨hka, hk⟩ := prefix_drop_append hk
    have hitem := Derives.item (derives_assignment ha hfit hka)
    cases as with
    | nil => exact hitem
    | cons b as =>
      have hmore := derives_moreAssignments (List.cons_ne_nil b as)
        (fun o ho => has o (by simp [ho])) hk hitem
      simpa [assignmentTokens] using hmore

/-- The assignments of an update in front of its condition. -/
theorem takes_assignments {as : List AssignExpr} (hne : as ≠ [])
    (has : ∀ a ∈ as, a.value.Readable d ∧ a.value.FitsPrimary) (c : Context)
    (hslots : (as.map AssignExpr.value).flatMap ExprNode.leaves <+: slots.drop c.paramCounter)
    (hrest : AtClause rest) :
    Takes (readAssignments d slots c.paramCounter) (d.write (assignmentList d as c).1)
      (as.map fun a => ⟨⟨"", assignedColumn a.column⟩, a.value.inDialect d⟩,
        c.paramCounter + ((as.map AssignExpr.value).flatMap ExprNode.leaves).length) rest := by
  have hitems := derives_assignments hne (fun a ha => ⟨(has a ha).1.derived, (has a ha).2⟩) hslots
  have hparse := parse_of_derives (.disj (.conj (.neg (.pred (.call "" hitems)))))
  have htrees : Takes (readTrees d slots c.paramCounter) (d.write (assignmentList d as c).1)
      (as.map (AssignExpr.equality d),
        c.paramCounter + ((as.map AssignExpr.value).flatMap ExprNode.leaves).length) rest := by
    refine Takes.bind_nil (takes_tokens (lexes_assignments hne (fun a ha => (has a ha).1.spelled)
      c) hrest) ?_
    simp only [hparse]
    exact takes_pure _ rest
  have hread : (as.map (AssignExpr.equality d)).mapM assignment? = some (as.map fun a =>
      ⟨⟨"", assignedColumn a.column⟩, a.value.inDialect d⟩) := by
    rw [List.mapM_map]
    exact List.mapM_pure
  refine Takes.bind_nil htrees ?_
  simp only [hread]
  exact takes_pure _ rest

end Assignments

/-! ## The statement of a call -/

/-- The statement that a call asks for, its functions named as the dialect names them. -/
def GenerateCall.statement (d : Dialect) : GenerateCall → Option Statement
  | .cteSelect [] tableName columns where_ orderBy limit offset isDistinct groupBy having
  | .select tableName columns where_ orderBy limit offset isDistinct groupBy having =>
    some (.rows ⟨d.firstRestriction limit offset, isDistinct, columns.map fun c => ⟨"", c⟩,
      tableName, [], where_.map (ExprNode.inDialect d), groupBy.map (ExprNode.inDialect d),
      having.map (ExprNode.inDialect d), [], orderBy.map fun o => (o.1.inDialect d, o.2),
      d.lastRestriction limit offset⟩)
  | .joinedSelect primaryTable primaryColumns joins joined where_ orderBy limit offset
      isDistinct =>
    some (.rows ⟨d.firstRestriction limit offset, isDistinct,
      joinedRefs ((primaryTable, primaryColumns) :: joined), primaryTable,
      joins.map (JoinClause.inDialect d), where_.map (ExprNode.inDialect d), [], none, [],
      orderBy.map fun o => (o.1.inDialect d, o.2), d.lastRestriction limit offset⟩)
  | .setOperation baseTable baseColumns baseWhere baseDistinct ops orderBy limit offset =>
    some (.rows ⟨d.firstRestriction limit offset, baseDistinct,
      baseColumns.map fun c => ⟨"", c⟩, baseTable, [], baseWhere.map (ExprNode.inDialect d), [],
      none, ops.map (SetOpClause.inDialect d),
      (orderBy.map setOpTerm).map fun o => (o.1.inDialect d, o.2),
      d.lastRestriction limit offset⟩)
  | .count tableName where_ isDistinct distinctColumn =>
    some (.count (if isDistinct then distinctColumn else none) tableName []
      (where_.map (ExprNode.inDialect d)))
  | .joinedCount primaryTable joins where_ =>
    some (.count none primaryTable (joins.map (JoinClause.inDialect d))
      (where_.map (ExprNode.inDialect d)))
  | .aggregate func tableName columnName where_ =>
    some (.aggregate func columnName tableName (where_.map (ExprNode.inDialect d)))
  | .update tableName assignments where_ =>
    some (.update tableName
      (assignments.map fun a => ⟨⟨"", assignedColumn a.column⟩, a.value.inDialect d⟩)
      (where_.map (ExprNode.inDialect d)))
  | .updateValues tableName assignments where_ =>
    some (.update tableName (assignments.map fun a => ⟨⟨"", a.1⟩, .literal a.2⟩)
      (where_.map (ExprNode.inDialect d)))
  | .delete tableName where_ =>
    some (.delete tableName (where_.map (ExprNode.inDialect d)))
  | _ => none

/-- The joins are of types that there are. -/
def KnownJoins (joins : List JoinClause) : Prop :=
  ∀ j ∈ joins, ∃ type : JoinType, j.joinType = type.sql

/-- What a call needs besides trees that can be read. -/
def GenerateCall.IsComplete : GenerateCall → Prop
  | .joinedSelect primaryTable primaryColumns joins joined _ _ _ _ _ =>
    KnownJoins joins ∧ joinedRefs ((primaryTable, primaryColumns) :: joined) ≠ []
  | .joinedCount _ joins _ => KnownJoins joins
  | .update _ assignments _ => assignments ≠ [] ∧ ∀ a ∈ assignments, a.value.FitsPrimary
  | .updateValues _ assignments _ => assignments ≠ []
  | .aggregate func _ _ _ => func ∈ aggregateFunctions
  | _ => True

/-- The call names what it needs, and the text of each of its trees gives the tree back. -/
structure GenerateCall.Readable (d : Dialect) (call : GenerateCall) : Prop where
  complete : call.IsComplete
  trees : ∀ n ∈ call.trees, n.Readable d

section Statements

variable {d : Dialect} {slots : List ParameterSlot} {cs : List Char}

/-- A statement is what one of the readers takes. -/
theorem takes_statement {s : Statement} (h : Takes (readRows d slots <|>
    readCountQuery d slots <|> readAggregate d slots <|> readUpdateWhere d slots <|>
    readDeleteWhere d slots) cs s []) : readStatement d slots cs = some s := by
  rw [Takes, List.append_nil] at h
  rw [readStatement, h]
  rfl

theorem readStatement_rows {q : RowQuery} (h : Takes (readRowQuery d slots) cs q []) :
    readStatement d slots cs = some (.rows q) :=
  takes_statement (h.map Statement.rows).orElse

/-- The name of a function is no select list. -/
theorem run_readRows_word {w : String} (hw : w ∈ "COUNT" :: aggregateFunctions)
    (text : List Char) :
    (readRows d slots).run ("SELECT ".toList ++ (w.toList ++ text)) = none := by
  have hother : ∀ x ∈ ['C', 'A', 'S', 'M'], ∀ c ∈ ['D', '*', d.quotes.opening], x ≠ c := by
    have hopening : ∀ x ∈ ['C', 'A', 'S', 'M'], x ≠ d.quotes.opening := by
      intro x hx
      simp only [List.mem_cons, List.not_mem_nil, or_false] at hx
      rcases hx with rfl | rfl | rfl | rfl <;> cases d <;> decide
    intro x hx c hc
    have hx' := hopening x hx
    simp only [List.mem_cons, List.not_mem_nil, or_false] at hx hc
    rcases hc with rfl | rfl | rfl
    · rcases hx with rfl | rfl | rfl | rfl <;> decide
    · rcases hx with rfl | rfl | rfl | rfl <;> decide
    · exact hx'
  simp only [aggregateFunctions, List.mem_cons, List.not_mem_nil, or_false] at hw
  rcases hw with rfl | rfl | rfl | rfl | rfl
  · exact run_readRows rfl rfl fun c hc h => hother 'C' (by decide) c hc (Option.some.inj h)
  · exact run_readRows rfl rfl fun c hc h => hother 'A' (by decide) c hc (Option.some.inj h)
  · exact run_readRows rfl rfl fun c hc h => hother 'S' (by decide) c hc (Option.some.inj h)
  · exact run_readRows rfl rfl fun c hc h => hother 'M' (by decide) c hc (Option.some.inj h)
  · exact run_readRows rfl rfl fun c hc h => hother 'M' (by decide) c hc (Option.some.inj h)

theorem readStatement_count {s : Statement} {text : List Char}
    (h : Takes (readCountQuery d slots) ("SELECT COUNT(".toList ++ text) s []) :
    readStatement d slots ("SELECT COUNT(".toList ++ text) = some s := by
  have hrows : (readRows d slots).run (("SELECT COUNT(".toList ++ text) ++ []) = none := by
    rw [List.append_nil]
    exact run_readRows_word List.mem_cons_self ('(' :: text)
  exact takes_statement (Takes.orElse_right hrows h.orElse)

theorem readStatement_aggregate {s : Statement} {func : String}
    (hfunc : func ∈ aggregateFunctions) {text : List Char}
    (h : Takes (readAggregate d slots) ("SELECT ".toList ++ (func.toList ++ text)) s []) :
    readStatement d slots ("SELECT ".toList ++ (func.toList ++ text)) = some s := by
  have hrows : (readRows d slots).run (("SELECT ".toList ++ (func.toList ++ text)) ++ []) =
      none := by
    rw [List.append_nil]
    exact run_readRows_word (List.mem_cons_of_mem _ hfunc) text
  have hcount : (readCountQuery d slots).run (("SELECT ".toList ++ (func.toList ++ text)) ++ []) =
      none := by
    refine run_bind_eq_none (run_exactly_eq_none ?_)
    rw [List.append_nil]
    simp only [aggregateFunctions, List.mem_cons, List.not_mem_nil, or_false] at hfunc
    rcases hfunc with rfl | rfl | rfl | rfl <;> rfl
  exact takes_statement (Takes.orElse_right hrows (Takes.orElse_right hcount h.orElse))

/-- A text with another first word is no query. -/
theorem readStatement_noSelect {s : Statement} (hselect : cs.head? ≠ some 'S')
    (h : Takes (readUpdateWhere d slots <|> readDeleteWhere d slots) cs s []) :
    readStatement d slots cs = some s := by
  have hword : ∀ w : String, w.toList.head? = some 'S' →
      (exactly w.toList).run (cs ++ []) = none := by
    intro w hw
    rw [List.append_nil]
    exact run_exactly_of_head hw hselect
  have hrows : (readRows d slots).run (cs ++ []) = none :=
    run_bind_eq_none (run_bind_eq_none (hword "SELECT " rfl))
  have hcount : (readCountQuery d slots).run (cs ++ []) = none :=
    run_bind_eq_none (hword "SELECT COUNT(" rfl)
  have haggregate : (readAggregate d slots).run (cs ++ []) = none :=
    run_bind_eq_none (hword "SELECT " rfl)
  exact takes_statement
    (Takes.orElse_right hrows (Takes.orElse_right hcount (Takes.orElse_right haggregate h)))

/-! ### The statements of the generator -/

variable {joins : List JoinClause} {where_ : Option ExprNode}

/-- The text of a count. -/
def countText (d : Dialect) (distinctColumn : Option String) (tableName : String)
    (joins : List JoinClause) (where_ : Option ExprNode) : Gen Text := do
  let clausesStr ← (joinList d joins).both (whereClause d where_)
  return lit "SELECT COUNT(" ++ (match distinctColumn with
    | some c => lit "DISTINCT " ++ d.quoteId c
    | none => lit "*") ++ lit ") FROM " ++ d.quoteId tableName ++ clausesStr

/-- The statements are read back, one lemma for each kind. -/
theorem read_countText (distinctColumn : Option String) (tableName : String)
    (hjoins : ∀ j ∈ joins, j.Readable d) (hwhere : ∀ n ∈ where_, n.Readable d) :
    let r := GeneratedSql.of (countText d distinctColumn tableName joins where_)
    readStatement d r.slots (d.write r.sql) = some (.count distinctColumn tableName
      (joins.map (JoinClause.inDialect d)) (where_.map (ExprNode.inDialect d))) := by
  intro r
  obtain ⟨hslots, htakes, hstops⟩ := (readBy_joinsWhere hjoins hwhere).atEnd (by decide)
  have hsql : r.sql = lit "SELECT COUNT(" ++ ((match distinctColumn with
      | some c => lit "DISTINCT " ++ d.quoteId c
      | none => lit "*") ++ (lit ") FROM " ++ (d.quoteId tableName ++
        (((joinList d joins).both (whereClause d where_)) (.start 0)).1))) := by
    simp only [← List.append_assoc]
    rfl
  have hr : r.slots = _ := hslots
  rw [hr, hsql, write_append, write_lit]
  refine readStatement_count (takes_exactly_bind ?_)
  rw [write_append, write_append, write_append, write_lit]
  refine Takes.bind (takes_counted distinctColumn) (takes_exactly_bind ?_)
  exact (takes_name tableName hstops).bind (Takes.bind_nil htakes rfl)

theorem functionName_aggregate {func : String} (hfunc : func ∈ aggregateFunctions) :
    d.functionName func = func := by
  simp only [aggregateFunctions, List.mem_cons, List.not_mem_nil, or_false] at hfunc
  rcases hfunc with rfl | rfl | rfl | rfl <;> cases d <;> rfl

theorem read_aggregate {func : String} (hfunc : func ∈ aggregateFunctions)
    (tableName columnName : String) (hwhere : ∀ n ∈ where_, n.Readable d) :
    let r := generateAggregate d func tableName columnName where_
    readStatement d r.slots (d.write r.sql) = some (.aggregate func columnName tableName
      (where_.map (ExprNode.inDialect d))) := by
  intro r
  obtain ⟨hslots, htakes, hstops⟩ := (readBy_where hwhere).atEnd (by decide)
  have hsql : r.sql = lit "SELECT " ++ (lit func ++ (lit "(" ++ ((if columnName = "*" then lit "*"
      else d.quoteId columnName) ++ (lit ") FROM " ++ (d.quoteId tableName ++
        (whereClause d where_ (.start 0)).1))))) := by
    simp only [← List.append_assoc]
    rw [← functionName_aggregate (d := d) hfunc]
    rfl
  have hr : r.slots = _ := hslots
  rw [hr, hsql, write_append, write_lit, write_append, write_lit]
  refine readStatement_aggregate hfunc (takes_exactly_bind ?_)
  refine (takes_oneOf hfunc _).bind ?_
  rw [write_append, write_lit]
  refine takes_exactly_bind ?_
  rw [write_append, write_append, write_append, write_lit]
  refine Takes.bind (takes_aggregated columnName) (takes_exactly_bind ?_)
  exact (takes_name tableName hstops).bind (Takes.bind_nil htakes rfl)

theorem read_delete (tableName : String) (hwhere : ∀ n ∈ where_, n.Readable d) :
    let r := generateDelete d tableName where_
    readStatement d r.slots (d.write r.sql) =
      some (.delete tableName (where_.map (ExprNode.inDialect d))) := by
  intro r
  obtain ⟨hslots, htakes, hstops⟩ := (readBy_where hwhere).atEnd (by decide)
  have hsql : r.sql = lit "DELETE FROM " ++ (d.quoteId tableName ++
      (whereClause d where_ (.start 0)).1) := by
    rw [← List.append_assoc]
    rfl
  have hr : r.slots = _ := hslots
  rw [hr, hsql, write_append, write_lit, write_append]
  refine readStatement_noSelect (by simp) (Takes.orElse_right ?_ (takes_exactly_bind ?_))
  · exact run_bind_eq_none (run_exactly_eq_none rfl)
  · exact (takes_name tableName hstops).bind (Takes.bind_nil htakes rfl)

theorem read_update (tableName : String) {as : List AssignExpr} (hne : as ≠ [])
    (has : ∀ a ∈ as, a.value.Readable d ∧ a.value.FitsPrimary)
    (hwhere : ∀ n ∈ where_, n.Readable d) :
    let r := generateUpdate d tableName as where_
    readStatement d r.slots (d.write r.sql) = some (.update tableName
      (as.map fun a => ⟨⟨"", assignedColumn a.column⟩, a.value.inDialect d⟩)
      (where_.map (ExprNode.inDialect d))) := by
  intro r
  let S := (as.map AssignExpr.value).flatMap ExprNode.leaves
  let S' := where_.toList.flatMap ExprNode.leaves
  have hwrites : Writes True [] (assignmentList d as) _ := writes_assignmentList as
  obtain ⟨text, hrecords⟩ := hwrites.records
  have hset : (assignmentList d as (.start 0)).2 = (Context.start 0).record S := by
    rw [hrecords, List.flatMap_map]
    rfl
  have hcondition : ReadBy d (S ++ S') (whereClause d where_) _ _ _ _ [] := readBy_where hwhere
  have hsql : r.sql = lit "UPDATE " ++ (d.quoteId tableName ++ (lit " SET " ++
      ((assignmentList d as (.start 0)).1 ++
        (whereClause d where_ ((Context.start 0).record S)).1))) := by
    rw [← hset]
    simp only [← List.append_assoc]
    rfl
  have hslots : r.slots = S ++ S' := by
    have hr : r.slots = (whereClause d where_ (assignmentList d as (.start 0)).2).2.slots := rfl
    rw [hr, hset, hcondition.records]
    rfl
  have hbegins := hcondition.begins ((Context.start 0).record S)
  have hat : AtClause (d.write (whereClause d where_ ((Context.start 0).record S)).1 ++ []) := by
    rw [List.append_nil]
    exact hbegins.atClause (by decide)
  have htakes : Takes (readAssignments d (S ++ S') _) _ _ _ :=
    takes_assignments hne has (.start 0) (List.prefix_append S S') hat
  have hslots' : S' <+: (S ++ S').drop ((Context.start 0).record S).paramCounter := by
    rw [Context.paramCounter_record, Context.paramCounter_start, Nat.zero_add, List.drop_left]
  have hwhere' := hcondition.takes ((Context.start 0).record S) [] hslots' (follows_nil [])
  rw [hslots, hsql, write_append, write_lit, write_append, write_append, write_append, write_lit]
  refine readStatement_noSelect (by simp) (Takes.orElse (takes_exactly_bind ?_))
  refine (takes_name tableName ?_).bind (takes_exactly_bind (Takes.bind_nil
    (htakes.bind (hwhere'.map fun w => ((_, w.1), w.2))) rfl))
  rw [List.append_assoc]
  exact stops_append rfl (by decide) _

theorem readable_of_leaf {n : ExprNode} (hchildren : n.children = [])
    (hnode : n.IsPredicateNode d ∧ n.OperandsFit) : n.Readable d := by
  unfold ExprNode.Readable
  rw [ExprNode.forall_mem_visited]
  refine ⟨hnode, fun c hc => ?_⟩
  rw [hchildren] at hc
  contradiction

theorem assignedColumn_named (c : String) : assignedColumn ⟨"", c⟩ = c := by
  unfold assignedColumn
  split
  · rename_i hc
    exact hc.symm
  · rfl

/-- Values are assigned as literals. -/
theorem valueAssignmentList_eq (as : List (String × BoundValue)) :
    valueAssignmentList d as =
      assignmentList d (as.map fun a => ⟨⟨"", a.1⟩, .literal a.2⟩) := by
  induction as with
  | nil => rfl
  | cons a as ih =>
    have hcomma : commaBefore as =
        commaBefore (as.map fun a => (⟨⟨"", a.1⟩, .literal a.2⟩ : AssignExpr)) := by
      cases as <;> rfl
    rw [List.map_cons, valueAssignmentList, assignmentList, ih, hcomma, assignedColumn_named]
    rfl

/-- An update of values is one of expressions. -/
theorem generateUpdateValues_eq (tableName : String) (as : List (String × BoundValue)) :
    generateUpdateValues d tableName as where_ =
      generateUpdate d tableName (as.map fun a => ⟨⟨"", a.1⟩, .literal a.2⟩) where_ := by
  unfold generateUpdateValues generateUpdate
  rw [valueAssignmentList_eq]

theorem read_updateValues (tableName : String) {as : List (String × BoundValue)} (hne : as ≠ [])
    (hwhere : ∀ n ∈ where_, n.Readable d) :
    let r := generateUpdateValues d tableName as where_
    readStatement d r.slots (d.write r.sql) = some (.update tableName
      (as.map fun a => ⟨⟨"", a.1⟩, .literal a.2⟩) (where_.map (ExprNode.inDialect d))) := by
  have hvalues : ∀ a ∈ as.map fun a => (⟨⟨"", a.1⟩, .literal a.2⟩ : AssignExpr),
      a.value.Readable d ∧ a.value.FitsPrimary := by
    intro a ha
    obtain ⟨b, -, rfl⟩ := List.mem_map.mp ha
    exact ⟨readable_of_leaf rfl ⟨trivial, trivial⟩, rfl, rfl⟩
  intro r
  have hr : r = generateUpdate d tableName (as.map fun a => ⟨⟨"", a.1⟩, .literal a.2⟩) where_ :=
    generateUpdateValues_eq tableName as
  rw [hr, read_update tableName (by simpa using hne) hvalues hwhere, List.map_map]
  have hback : ((fun a : AssignExpr => (⟨⟨"", assignedColumn a.column⟩, a.value.inDialect d⟩ :
      AssignExpr)) ∘ fun a : String × BoundValue => ⟨⟨"", a.1⟩, .literal a.2⟩) =
      fun a => ⟨⟨"", a.1⟩, .literal a.2⟩ := by
    funext a
    simp only [Function.comp_apply, assignedColumn_named]
    rfl
  rw [hback]

section Rows

variable {limit offset : Option ℕ} {groupBy : List ExprNode} {having : Option ExprNode}
  {orderBy : List OrderByExpr} {r : GeneratedSql}

/-- A dialect that writes a statement has words for its paging. -/
theorem paging_of_generated {f : String → GeneratedSql}
    (h : (do let paging ← d.limitOffset limit offset; return f paging) = .ok r) :
    ∃ paging, d.limitOffset limit offset = .ok paging := by
  cases hp : d.limitOffset limit offset with
  | error e =>
    rw [hp] at h
    contradiction
  | ok paging => exact ⟨paging, rfl⟩

theorem read_rowText (isDistinct : Bool) {columns : Text} {refs : List ColumnRef}
    (hcolumns : IsSelectList d columns refs) (tableName : String) {clauses : Gen Text}
    {ops : List SetOpClause} {last : Restriction}
    (hclauses : ReadBy d slots clauses (readRowClauses d slots)
      (joins, where_, groupBy, having, ops, orderBy, last) slots rowHeads []) :
    let r := GeneratedSql.of (rowText d limit offset isDistinct columns tableName clauses)
    readStatement d r.slots (d.write r.sql) = some (.rows ⟨d.firstRestriction limit offset,
      isDistinct, refs, tableName, joins, where_, groupBy, having, ops, orderBy, last⟩) := by
  obtain ⟨hslots, htakes⟩ := takes_rowText isDistinct hcolumns tableName hclauses
  intro r
  rw [hslots]
  exact readStatement_rows htakes

theorem read_select {tableName : String} {columns : List String} {isDistinct : Bool}
    (hwhere : ∀ n ∈ where_, n.Readable d) (hgroup : ∀ n ∈ groupBy, n.Readable d)
    (hhaving : ∀ n ∈ having, n.Readable d) (horder : ∀ o ∈ orderBy, o.1.Readable d)
    (h : generateSelect d tableName columns where_ orderBy limit offset isDistinct groupBy having =
      .ok r) :
    readStatement d r.slots (d.write r.sql) = some (.rows ⟨d.firstRestriction limit offset,
      isDistinct, columns.map fun c => ⟨"", c⟩, tableName, [], where_.map (ExprNode.inDialect d),
      groupBy.map (ExprNode.inDialect d), having.map (ExprNode.inDialect d), [],
      orderBy.map fun o => (o.1.inDialect d, o.2), d.lastRestriction limit offset⟩) := by
  obtain ⟨paging, hp⟩ := paging_of_generated h
  rw [generateSelect_text hp] at h
  injection h with h
  subst h
  exact read_rowText isDistinct (isSelectList_columns columns) tableName
    (readBy_rowClauses (by simp) hwhere hgroup hhaving (by simp) horder hp)

theorem read_joinedSelect {primaryTable : String} {primaryColumns : List String}
    {joined : List (String × List String)} {isDistinct : Bool}
    (hcolumns : joinedRefs ((primaryTable, primaryColumns) :: joined) ≠ [])
    (hjoins : ∀ j ∈ joins, j.Readable d) (hwhere : ∀ n ∈ where_, n.Readable d)
    (horder : ∀ o ∈ orderBy, o.1.Readable d)
    (h : generateJoinedSelect d primaryTable primaryColumns joins joined where_ orderBy limit
      offset isDistinct = .ok r) :
    readStatement d r.slots (d.write r.sql) = some (.rows ⟨d.firstRestriction limit offset,
      isDistinct, joinedRefs ((primaryTable, primaryColumns) :: joined), primaryTable,
      joins.map (JoinClause.inDialect d), where_.map (ExprNode.inDialect d), [], none, [],
      orderBy.map fun o => (o.1.inDialect d, o.2), d.lastRestriction limit offset⟩) := by
  obtain ⟨paging, hp⟩ := paging_of_generated h
  rw [generateJoinedSelect_text hp] at h
  injection h with h
  subst h
  exact read_rowText isDistinct (isSelectList_joined hcolumns) primaryTable
    (readBy_rowClauses hjoins hwhere (by simp) (by simp) (by simp) horder hp)

theorem readable_setOpTerm (ho : ∀ n ∈ orderBy.flatMap setOpOrderTree, n.Readable d) :
    ∀ o ∈ orderBy.map setOpTerm, o.1.Readable d := by
  intro o ho'
  obtain ⟨⟨e, dir⟩, he, rfl⟩ := List.mem_map.mp ho'
  cases e with
  | columnRef ref => exact readable_of_leaf rfl ⟨trivial, trivial⟩
  | _ => exact ho _ (List.mem_flatMap.mpr ⟨_, he, List.mem_cons_self⟩)

/-- A set operation is read back with all its queries. -/
theorem read_setOperation {baseTable : String} {baseColumns : List String} {isDistinct : Bool}
    {ops : List SetOpClause} (hwhere : ∀ n ∈ where_, n.Readable d)
    (hops : ∀ op ∈ ops, op.Readable d)
    (horder : ∀ n ∈ orderBy.flatMap setOpOrderTree, n.Readable d)
    (h : generateSetOperation d baseTable baseColumns where_ isDistinct ops orderBy limit offset =
      .ok r) :
    readStatement d r.slots (d.write r.sql) = some (.rows ⟨d.firstRestriction limit offset,
      isDistinct, baseColumns.map fun c => ⟨"", c⟩, baseTable, [],
      where_.map (ExprNode.inDialect d), [], none, ops.map (SetOpClause.inDialect d),
      (orderBy.map setOpTerm).map fun o => (o.1.inDialect d, o.2),
      d.lastRestriction limit offset⟩) := by
  obtain ⟨paging, hp⟩ := paging_of_generated h
  rw [generateSetOperation_text hp] at h
  injection h with h
  subst h
  exact read_rowText isDistinct (isSelectList_columns baseColumns) baseTable
    (readBy_rowClauses (by simp) hwhere (by simp) (by simp) hops (readable_setOpTerm horder) hp)

end Rows

theorem generateCount_text (tableName : String) (isDistinct : Bool)
    (distinctColumn : Option String) :
    generateCount d tableName where_ isDistinct distinctColumn =
      .of (countText d (if isDistinct then distinctColumn else none) tableName [] where_) := by
  cases isDistinct with
  | false => rfl
  | true => cases distinctColumn <;> rfl

theorem generateJoinedCount_text (primaryTable : String) :
    generateJoinedCount d primaryTable joins where_ =
      .of (countText d none primaryTable joins where_) := by
  have happend : ∀ table joinStr whereStr : Text,
      lit "SELECT COUNT(*) FROM " ++ table ++ joinStr ++ whereStr =
        lit "SELECT COUNT(" ++ lit "*" ++ lit ") FROM " ++ table ++ (joinStr ++ whereStr) := by
    intro table joinStr whereStr
    rw [← List.append_assoc]
    rfl
  exact congrArg GeneratedSql.of (funext fun c => Prod.ext (happend _ _ _) rfl)

/-- Wherever a call of the generator writes a text, a server reads in it what the call asks
for. -/
theorem statement_read (d : Dialect) (call : GenerateCall) (s : Statement) (r : GeneratedSql)
    (hs : call.statement d = some s) (hcall : call.Readable d) (h : generate d call = .ok r) :
    readStatement d r.slots (d.write r.sql) = some s := by
  obtain ⟨hcomplete, htrees⟩ := hcall
  cases call with
  | cteSelect ctes tableName columns where_ orderBy limit offset isDistinct groupBy having =>
    cases ctes with
    | cons cte ctes => contradiction
    | nil =>
      injection hs with hs
      subst hs
      simp only [GenerateCall.trees, List.flatMap_nil, List.nil_append, List.mem_append,
        Option.mem_toList, or_imp, forall_and, List.forall_mem_map] at htrees
      exact read_select htrees.1.1.1 htrees.1.1.2 htrees.1.2 htrees.2 h
  | select tableName columns where_ orderBy limit offset isDistinct groupBy having =>
    injection hs with hs
    subst hs
    simp only [GenerateCall.trees, List.mem_append, Option.mem_toList, or_imp, forall_and,
      List.forall_mem_map] at htrees
    exact read_select htrees.1.1.1 htrees.1.1.2 htrees.1.2 htrees.2 h
  | joinedSelect primaryTable primaryColumns joins joined where_ orderBy limit offset isDistinct =>
    injection hs with hs
    subst hs
    simp only [GenerateCall.trees, List.mem_append, Option.mem_toList, or_imp, forall_and,
      List.forall_mem_map] at htrees
    exact read_joinedSelect hcomplete.2 (fun j hj => ⟨hcomplete.1 j hj, htrees.1.1 j hj⟩)
      htrees.1.2 htrees.2 h
  | joinedCount primaryTable joins where_ =>
    injection h with h
    injection hs with hs
    subst h hs
    simp only [GenerateCall.trees, List.mem_append, Option.mem_toList, or_imp, forall_and,
      List.forall_mem_map] at htrees
    rw [generateJoinedCount_text]
    exact read_countText none primaryTable (fun j hj => ⟨hcomplete j hj, htrees.1 j hj⟩) htrees.2
  | setOperation baseTable baseColumns baseWhere baseDistinct ops orderBy limit offset =>
    injection hs with hs
    subst hs
    simp only [GenerateCall.trees, List.mem_append, Option.mem_toList, or_imp, forall_and]
      at htrees
    refine read_setOperation htrees.1.1 (fun op hop n hn => ?_) htrees.2 h
    exact htrees.1.2 n (List.mem_flatMap.mpr ⟨op, hop, Option.mem_toList.mpr hn⟩)
  | update tableName as where_ =>
    injection h with h
    injection hs with hs
    subst h hs
    simp only [GenerateCall.trees, List.mem_append, Option.mem_toList, or_imp, forall_and,
      List.forall_mem_map] at htrees
    exact read_update tableName hcomplete.1
      (fun a ha => ⟨htrees.1 a ha, hcomplete.2 a ha⟩) htrees.2
  | updateValues tableName as where_ =>
    injection h with h
    injection hs with hs
    subst h hs
    simp only [GenerateCall.trees, List.mem_append, Option.mem_toList, or_imp, forall_and]
      at htrees
    exact read_updateValues tableName hcomplete htrees.2
  | delete tableName where_ =>
    injection h with h
    injection hs with hs
    subst h hs
    exact read_delete tableName fun n hn => htrees n (by simpa [GenerateCall.trees] using hn)
  | count tableName where_ isDistinct column =>
    injection h with h
    injection hs with hs
    subst h hs
    rw [generateCount_text]
    exact read_countText _ tableName (by simp) fun n hn =>
      htrees n (by simpa [GenerateCall.trees] using hn)
  | aggregate func tableName columnName where_ =>
    injection h with h
    injection hs with hs
    subst h hs
    exact read_aggregate hcomplete tableName columnName fun n hn =>
      htrees n (by simpa [GenerateCall.trees] using hn)
  | insert | upsert | setOperationCount | expression => contradiction

/-- The films with a good rating, from the sixth on. -/
def ratedFilms : GenerateCall :=
  .joinedSelect "films" ["id", "title"]
    [⟨"LEFT JOIN", "ratings", .binary (.columnRef ⟨"films", "id"⟩) .eq
      (.columnRef ⟨"ratings", "film"⟩)⟩]
    [("ratings", ["stars"])]
    (some (.binary (.columnRef ⟨"ratings", "stars"⟩) .ge (.paramPlaceholder 0)))
    [(.columnRef ⟨"films", "title"⟩, .desc)] none (some 5) false

theorem statement_read_ratedFilms : ∃ s r, ratedFilms.statement .mysql = some s ∧
    generate .mysql ratedFilms = .ok r ∧
    readStatement .mysql r.slots (Dialect.write .mysql r.sql) = some s := by
  refine ⟨_, _, rfl, rfl, statement_read .mysql ratedFilms _ _ rfl ⟨⟨?_, by decide⟩, ?_⟩ rfl⟩
  · intro j hj
    obtain rfl := List.mem_singleton.mp hj
    exact ⟨.left, rfl⟩
  · intro n hn m hm
    simp only [ratedFilms, GenerateCall.trees, List.map_cons, List.map_nil, Option.toList_some,
      List.mem_append, List.mem_cons, List.not_mem_nil, or_false] at hn
    rcases hn with (rfl | rfl) | rfl <;>
      simp [ExprNode.visited_eq, ExprNode.children] at hm <;>
      rcases hm with rfl | rfl | rfl <;>
      simp [ExprNode.IsPredicateNode, ExprNode.OperandsFit, ExprNode.FitsLeft,
        ExprNode.FitsPrimary, ExprNode.isNot, ExprNode.isNullTest]

end Statements

end CppLinq
