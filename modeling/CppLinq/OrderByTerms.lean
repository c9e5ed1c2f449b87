import CppLinq.CreateTable

/-!
# What a query is ordered by

`SELECT DISTINCT` and compound selects may be ordered by their result columns alone. `orderTerms`
reads the terms back from the characters that a query has beyond the same query without order and
pagination (`orderByText`). The generator writes the references that it is given, but a filler,
which is no column, where there are none and the pagination has the word `OFFSET`.
-/

namespace CppLinq

/-! ## Reading the terms -/

/-- A term without its direction. -/
def withoutDirection (es : List DefToken) : List DefToken :=
  if es.getLast? = some (.word "ASC".toList) ∨ es.getLast? = some (.word "DESC".toList) then
    es.dropLast
  else es

/-- The terms of an `ORDER BY` clause. Any other text is one term, unless there is none. -/
def orderTerms (q : Quotes) (cs : List Char) : List (List DefToken) :=
  match defTokens q cs with
  | [] => []
  | .word w :: .word w' :: ts =>
    if w = "ORDER".toList ∧ w' = "BY".toList then (elements 0 [] ts).map withoutDirection
    else [.word w :: .word w' :: ts]
  | ts => [ts]

namespace GenerateCall

/-- The query without its order and its pagination. -/
def unordered : GenerateCall → GenerateCall
  | cteSelect ctes table cols w _ _ _ distinct group having =>
    cteSelect ctes table cols w [] none none distinct group having
  | joinedSelect table cols joins joined w _ _ _ distinct =>
    joinedSelect table cols joins joined w [] none none distinct
  | setOperation table cols w distinct ops _ _ _ =>
    setOperation table cols w distinct ops [] none none
  | call => call

/-- The ordering of a query for rows. -/
def orderBy : GenerateCall → List OrderByExpr
  | cteSelect _ _ _ _ order _ _ _ _ _ => order
  | joinedSelect _ _ _ _ _ order _ _ _ => order
  | setOperation _ _ _ _ _ order _ _ => order
  | _ => []

/-- Its limit. -/
def limit : GenerateCall → Option ℕ
  | cteSelect _ _ _ _ _ n _ _ _ _ => n
  | joinedSelect _ _ _ _ _ _ n _ _ => n
  | setOperation _ _ _ _ _ _ n _ => n
  | _ => none

/-- Its offset. -/
def offset : GenerateCall → Option ℕ
  | cteSelect _ _ _ _ _ _ m _ _ _ => m
  | joinedSelect _ _ _ _ _ _ _ m _ => m
  | setOperation _ _ _ _ _ _ _ m => m
  | _ => none

/-- A `SELECT DISTINCT` with a list of columns, or a compound select. -/
def HasResultColumns : GenerateCall → Prop
  | cteSelect _ _ cols _ _ _ _ distinct _ _ => distinct = true ∧ cols ≠ []
  | joinedSelect _ cols _ joined _ _ _ _ distinct =>
    distinct = true ∧ (cols ≠ [] ∨ ∃ t ∈ joined, t.2 ≠ [])
  | setOperation _ _ _ _ ops _ _ _ => ops ≠ []
  | _ => False

/-- A column is one of the result, `table` being its qualifier or empty. A compound select has the
columns of its first table, which are any if it lists none. -/
def IsResultColumn : GenerateCall → (table column : String) → Prop
  | cteSelect _ table cols _ _ _ _ _ _ _, t, c => c ∈ cols ∧ (t = "" ∨ t = table)
  | joinedSelect table cols _ joined _ _ _ _ _, t, c =>
    ∃ p ∈ (table, cols) :: joined, c ∈ p.2 ∧ (t = "" ∨ t = p.1)
  | setOperation _ cols _ _ _ _ _ _, t, c => (cols = [] ∨ c ∈ cols) ∧ t = ""
  | _, _, _ => False

/-- What the query is ordered by refers to result columns. The qualifier of a column is left out
of a compound select. -/
def OrdersByResult (call : GenerateCall) : Prop :=
  ∀ o ∈ call.orderBy, ∃ ref : ColumnRef, o.1 = .columnRef ref ∧
    match call with
    | setOperation .. => call.IsResultColumn "" ref.columnName
    | _ => call.IsResultColumn ref.tableName ref.columnName

/-- The term is a result column. -/
def IsResultTerm (call : GenerateCall) (es : List DefToken) : Prop :=
  (∃ c, es = [.quoted .name c] ∧ call.IsResultColumn "" c) ∨
    ∃ t c, t ≠ "" ∧ es = [.quoted .name t, .mark '.', .quoted .name c] ∧ call.IsResultColumn t c

end GenerateCall

/-- What a query has beyond the same query without order and pagination, up to its pagination.
Informix paginates at the head of the query. -/
def orderByText (d : Dialect) (call : GenerateCall) : Except Exn (List Char) := do
  let r ← generate d call
  let r' ← generate d call.unordered
  let paging ← d.limitOffset call.limit call.offset
  let head := (d.selectPrefixLimitOffset call.limit call.offset).toList.length +
    (d.write r'.sql).length
  return ((d.write r.sql).drop head).take
    ((d.write r.sql).length - head - paging.toList.length)

/-! ## The clause that is written -/

/-- A query that is ordered by columns. -/
def columnOrder (refs : List (ColumnRef × SortDir)) : List OrderByExpr :=
  refs.map fun p => (.columnRef p.1, p.2)

/-- `ORDER BY` and columns, each as `key` writes it, or `whenEmpty`. -/
def columnClause (key : ColumnRef → Text) (whenEmpty : Text)
    (refs : List (ColumnRef × SortDir)) : Text :=
  if refs.isEmpty then whenEmpty
  else lit " ORDER BY " ++ commaList (refs.map fun p => key p.1 ++ lit p.2.sql)

section Clause

variable {d : Dialect} {refs : List (ColumnRef × SortDir)}

/-- An ordering by columns is written as a list of columns. -/
theorem visitOrderBy_columnOrder (refs : List (ColumnRef × SortDir)) :
    visitOrderBy d (columnOrder refs) =
      pure (commaList (refs.map fun p => columnSql d p.1 ++ lit p.2.sql)) := by
  induction refs with
  | nil => rfl
  | cons p refs ih =>
    cases refs with
    | nil => rfl
    | cons p' refs =>
      have hcons : visitOrderBy d (columnOrder (p :: p' :: refs)) =
          visitOrderBy d (columnOrder (p' :: refs)) >>= fun tail =>
            pure (columnSql d p.1 ++ lit p.2.sql ++ lit ", " ++ tail) := rfl
      rw [hcons, ih, pure_bind]
      rfl

theorem setOpOrderBy_columnOrder (refs : List (ColumnRef × SortDir)) :
    setOpOrderBy d (columnOrder refs) =
      pure (commaList (refs.map fun p => d.quoteId p.1.columnName ++ lit p.2.sql)) := by
  induction refs with
  | nil => rfl
  | cons p refs ih =>
    have hcons : setOpOrderBy d (columnOrder (p :: refs)) =
        setOpOrderBy d (columnOrder refs) >>= fun tail =>
          pure (d.quoteId p.1.columnName ++ lit p.2.sql ++ commaBefore (columnOrder refs) ++
            tail) := rfl
    rw [hcons, ih, pure_bind]
    cases refs with
    | nil => simp [commaBefore, columnOrder, commaList, joinSep]
    | cons p' refs => rfl

theorem listClause_columnOrder {key : ColumnRef → Text} {whenEmpty : Text} {list : Gen Text}
    (h : list = pure (commaList (refs.map fun p => key p.1 ++ lit p.2.sql))) :
    listClause whenEmpty (lit " ORDER BY ") [] (columnOrder refs) list =
      pure (columnClause key whenEmpty refs) := by
  rw [h, listClause, pure_bind]
  cases refs with
  | nil => rfl
  | cons p refs =>
    simp [columnClause, columnOrder]

end Clause

/-- The text of the query is `before`, the pagination that goes to its head, `after`, the clause
and the pagination that goes to its end. Without order and pagination it is `before` and
`after`. -/
def IsOrderedWith (d : Dialect) (call : GenerateCall) (clause : Text) : Prop :=
  ∃ (r r' : GeneratedSql) (paging : String) (before after : Text),
    generate d call = .ok r ∧ generate d call.unordered = .ok r' ∧
    d.limitOffset call.limit call.offset = .ok paging ∧
    r.sql = before ++ lit (d.selectPrefixLimitOffset call.limit call.offset) ++ after ++ clause ++
      lit paging ∧
    r'.sql = before ++ after

/-- The `ORDER BY` of a statement is the clause that it was made with. -/
theorem orderByText_of_isOrderedWith {d : Dialect} {call : GenerateCall} {clause : Text}
    (h : IsOrderedWith d call clause) : orderByText d call = .ok (d.write clause) := by
  obtain ⟨r, r', paging, before, after, hr, hr', hpaging, hsql, hsql'⟩ := h
  have hread : ∀ (before pre after clause paging : List Char),
      ((before ++ pre ++ after ++ clause ++ paging).drop
        (pre.length + (before ++ after).length)).take
        ((before ++ pre ++ after ++ clause ++ paging).length -
          (pre.length + (before ++ after).length) - paging.length) = clause := by
    intro before pre after clause paging
    have hlength : pre.length + (before ++ after).length = (before ++ pre ++ after).length := by
      simp only [List.length_append]
      omega
    rw [hlength, List.append_assoc (before ++ pre ++ after), List.drop_left]
    have htake : (before ++ pre ++ after ++ (clause ++ paging)).length -
        (before ++ pre ++ after).length - paging.length = clause.length := by
      simp only [List.length_append]
      omega
    rw [htake, List.take_left]
  have htext : d.write r.sql = d.write before ++
      (d.selectPrefixLimitOffset call.limit call.offset).toList ++ d.write after ++
      d.write clause ++ paging.toList := by
    rw [hsql]
    simp only [write_append, write_lit]
  have htext' : d.write r'.sql = d.write before ++ d.write after := by
    rw [hsql', write_append]
  have hall := hread (d.write before)
    (d.selectPrefixLimitOffset call.limit call.offset).toList (d.write after) (d.write clause)
    paging.toList
  rw [← htext, ← htext'] at hall
  rw [orderByText, hr, hr', hpaging]
  exact congrArg Except.ok hall

section Queries

variable {d : Dialect} {refs : List (ColumnRef × SortDir)} {limit offset : Option ℕ}
  {paging : String}

/-- The clause of a select, of a join and of a set operation. -/
theorem isOrderedWith_cteSelect (hpaging : d.limitOffset limit offset = .ok paging)
    (ctes : List CteClause) (table : String) (cols : List String) (w : Option ExprNode)
    (distinct : Bool) (group : List ExprNode) (having : Option ExprNode) :
    IsOrderedWith d
      (.cteSelect ctes table cols w (columnOrder refs) limit offset distinct group having)
      (columnClause (columnSql d) (pagingOrder limit offset paging) refs) := by
  have hclause : orderByClause d (columnOrder refs) limit offset paging = _ :=
    listClause_columnOrder (visitOrderBy_columnOrder refs)
  let withStr := withClause d ctes (.start 0)
  let whereStr := whereClause d w withStr.2
  let groupStr := groupByClause d group whereStr.2
  let havingStr := havingClause d having groupStr.2
  have hr : ∃ r, generate d (.cteSelect ctes table cols w (columnOrder refs) limit offset distinct
      group having) = .ok r ∧ r.sql = withStr.1 ++ lit "SELECT " ++
        lit (d.selectPrefixLimitOffset limit offset) ++
        (selectFrom d "*" distinct cols table ++ whereStr.1 ++ groupStr.1 ++ havingStr.1) ++
        columnClause (columnSql d) (pagingOrder limit offset paging) refs ++ lit paging := by
    rw [generate, generateCteSelect, hpaging]
    refine ⟨_, rfl, ?_⟩
    rw [hclause]
    change withStr.1 ++ lit "SELECT " ++ lit (d.selectPrefixLimitOffset limit offset) ++
      selectFrom d "*" distinct cols table ++ whereStr.1 ++ groupStr.1 ++ havingStr.1 ++
      columnClause (columnSql d) (pagingOrder limit offset paging) refs ++ lit paging = _
    simp only [List.append_assoc]
  have hr' : ∃ r, generate d (.cteSelect ctes table cols w [] none none distinct
      group having) = .ok r ∧ r.sql = withStr.1 ++ lit "SELECT " ++
        (selectFrom d "*" distinct cols table ++ whereStr.1 ++ groupStr.1 ++ havingStr.1) := by
    rw [generate, generateCteSelect, Dialect.limitOffset_none]
    refine ⟨_, rfl, ?_⟩
    rw [Dialect.selectPrefixLimitOffset_none]
    change withStr.1 ++ lit "SELECT " ++ [] ++ selectFrom d "*" distinct cols table ++ whereStr.1 ++
      groupStr.1 ++ havingStr.1 ++ [] ++ [] = _
    simp only [List.append_assoc, List.append_nil]
  obtain ⟨r, hr, hsql⟩ := hr
  obtain ⟨r', hr', hsql'⟩ := hr'
  exact ⟨r, r', paging, _, _, hr, hr', hpaging, hsql, hsql'⟩

theorem isOrderedWith_joinedSelect (hpaging : d.limitOffset limit offset = .ok paging)
    (table : String) (cols : List String) (joins : List JoinClause)
    (joined : List (String × List String)) (w : Option ExprNode) (distinct : Bool) :
    IsOrderedWith d
      (.joinedSelect table cols joins joined w (columnOrder refs) limit offset distinct)
      (columnClause (columnSql d) (pagingOrder limit offset paging) refs) := by
  have hclause : orderByClause d (columnOrder refs) limit offset paging = _ :=
    listClause_columnOrder (visitOrderBy_columnOrder refs)
  let joinStr := joinList d joins (.start 0)
  let whereStr := whereClause d w joinStr.2
  let after := distinctWord distinct ++ joinedColumns d ((table, cols) :: joined) ++
    lit " FROM " ++ d.quoteId table ++ joinStr.1 ++ whereStr.1
  have hr : ∃ r, generate d (.joinedSelect table cols joins joined w (columnOrder refs) limit offset
      distinct) = .ok r ∧ r.sql = lit "SELECT " ++
        lit (d.selectPrefixLimitOffset limit offset) ++ after ++
        columnClause (columnSql d) (pagingOrder limit offset paging) refs ++ lit paging := by
    rw [generate, generateJoinedSelect, hpaging]
    refine ⟨_, rfl, ?_⟩
    rw [hclause]
    change lit "SELECT " ++ lit (d.selectPrefixLimitOffset limit offset) ++
      distinctWord distinct ++ joinedColumns d ((table, cols) :: joined) ++
      lit " FROM " ++ d.quoteId table ++ joinStr.1 ++ whereStr.1 ++
      columnClause (columnSql d) (pagingOrder limit offset paging) refs ++ lit paging = _
    simp only [after, List.append_assoc]
  have hr' : ∃ r, generate d (.joinedSelect table cols joins joined w [] none none distinct) =
      .ok r ∧ r.sql = lit "SELECT " ++ after := by
    rw [generate, generateJoinedSelect, Dialect.limitOffset_none]
    refine ⟨_, rfl, ?_⟩
    rw [Dialect.selectPrefixLimitOffset_none]
    change lit "SELECT " ++ [] ++ distinctWord distinct ++
      joinedColumns d ((table, cols) :: joined) ++ lit " FROM " ++ d.quoteId table ++ joinStr.1 ++
      whereStr.1 ++ [] ++ [] = _
    simp only [after, List.append_assoc, List.append_nil]
  obtain ⟨r, hr, hsql⟩ := hr
  obtain ⟨r', hr', hsql'⟩ := hr'
  exact ⟨r, r', paging, _, _, hr, hr', hpaging, hsql, hsql'⟩

theorem isOrderedWith_setOperation (hpaging : d.limitOffset limit offset = .ok paging)
    (table : String) (cols : List String) (w : Option ExprNode) (distinct : Bool)
    (ops : List SetOpClause) :
    IsOrderedWith d (.setOperation table cols w distinct ops (columnOrder refs) limit offset)
      (columnClause (fun ref => d.quoteId ref.columnName) (pagingOrder limit offset paging)
        refs) := by
  have hclause : listClause (pagingOrder limit offset paging) (lit " ORDER BY ") []
      (columnOrder refs) (setOpOrderBy d (columnOrder refs)) = _ :=
    @listClause_columnOrder refs (fun ref => d.quoteId ref.columnName) _ _
      (setOpOrderBy_columnOrder refs)
  let whereStr := whereClause d w (.start 0)
  let opStr := setOpList d ops whereStr.2
  let after := selectFrom d "*" distinct cols table ++ whereStr.1 ++ opStr.1
  have hr : ∃ r, generate d (.setOperation table cols w distinct ops (columnOrder refs) limit
      offset) = .ok r ∧ r.sql = lit "SELECT " ++
        lit (d.selectPrefixLimitOffset limit offset) ++ after ++
        columnClause (fun ref => d.quoteId ref.columnName) (pagingOrder limit offset paging) refs ++
        lit paging := by
    rw [generate, generateSetOperation, hpaging]
    refine ⟨_, rfl, ?_⟩
    rw [hclause]
    change lit "SELECT " ++ lit (d.selectPrefixLimitOffset limit offset) ++
      selectFrom d "*" distinct cols table ++ whereStr.1 ++ opStr.1 ++
      columnClause (fun ref => d.quoteId ref.columnName) (pagingOrder limit offset paging) refs ++
      lit paging = _
    simp only [after, List.append_assoc]
  have hr' : ∃ r, generate d (.setOperation table cols w distinct ops [] none none) = .ok r ∧
      r.sql = lit "SELECT " ++ after := by
    rw [generate, generateSetOperation, Dialect.limitOffset_none]
    refine ⟨_, rfl, ?_⟩
    rw [Dialect.selectPrefixLimitOffset_none]
    change lit "SELECT " ++ [] ++ selectFrom d "*" distinct cols table ++ whereStr.1 ++ opStr.1 ++
      [] ++ [] = _
    simp only [after, List.append_assoc, List.append_nil]
  obtain ⟨r, hr, hsql⟩ := hr
  obtain ⟨r', hr', hsql'⟩ := hr'
  exact ⟨r, r', paging, _, _, hr, hr', hpaging, hsql, hsql'⟩

end Queries

/-! ## The terms that are read -/

/-- The pagination of the dialect has the word `OFFSET`. -/
def PagesByOffset : Dialect → Option ℕ → Option ℕ → Prop
  | .informix, _, _ => False
  | .mssql, limit, offset | .oracle, limit, offset => limit.isSome ∨ offset.isSome
  | .sqlite, _, offset | .postgres, _, offset | .mysql, _, offset => offset.isSome

instance (d : Dialect) (limit offset : Option ℕ) : Decidable (PagesByOffset d limit offset) := by
  cases d <;> unfold PagesByOffset <;> infer_instance

theorem not_infix_limit (n : ℕ) : ¬ "OFFSET".toList <:+: (" LIMIT " ++ n.repr).toList := by
  intro h
  have hmem : 'O' ∈ (" LIMIT " ++ n.repr).toList := h.subset (by decide)
  rw [String.toList_append, List.mem_append, Nat.toList_repr] at hmem
  obtain hmem | hmem := hmem
  · exact absurd hmem (by decide)
  · have hdigit : 'O'.isDigit = true := isDigit_of_mem_decimal hmem
    exact absurd hdigit (by decide)

/-- The filler stands where the paging has an `OFFSET`. -/
theorem pagingOrder_of_infix {paging : String} (h : "OFFSET".toList <:+: paging.toList)
    (limit offset : Option ℕ) : pagingOrder limit offset paging =
      if limit.isSome || offset.isSome then lit " ORDER BY (SELECT NULL)" else [] := by
  rw [pagingOrder, decide_eq_true h, Bool.and_true]

theorem pagingOrder_of_no_offset {paging : String} (h : ¬ "OFFSET".toList <:+: paging.toList)
    (limit offset : Option ℕ) : pagingOrder limit offset paging = [] := by
  rw [pagingOrder, decide_eq_false h, Bool.and_false]
  rfl

theorem pagingOrder_limitThenOffset (unlimited : String) (limit offset : Option ℕ) :
    pagingOrder limit offset (Dialect.limitThenOffset unlimited limit offset) =
      if offset.isSome then lit " ORDER BY (SELECT NULL)" else [] := by
  cases offset with
  | none =>
    cases limit with
    | none => rfl
    | some n => exact pagingOrder_of_no_offset (not_infix_limit n) _ _
  | some m =>
    have hoffset (before : String) :
        "OFFSET".toList <:+: (before ++ " OFFSET " ++ m.repr).toList := by
      rw [String.toList_append, String.toList_append]
      exact ((by decide : "OFFSET".toList <:+: " OFFSET ".toList).trans
        (List.suffix_append _ _).isInfix).trans (List.prefix_append _ _).isInfix
    cases limit with
    | none => exact pagingOrder_of_infix (hoffset unlimited) _ _
    | some n => exact pagingOrder_of_infix (hoffset (" LIMIT " ++ n.repr)) _ _

theorem pagingOrder_fetchNext (limit offset : Option ℕ) :
    pagingOrder limit offset (Dialect.fetchNext limit offset) =
      if limit.isSome ∨ offset.isSome then lit " ORDER BY (SELECT NULL)" else [] := by
  have happend {before : String} (h : "OFFSET".toList <:+: before.toList) (after : String) :
      "OFFSET".toList <:+: (before ++ after).toList := by
    rw [String.toList_append]
    exact h.trans (List.prefix_append _ _).isInfix
  have hoffset : "OFFSET".toList <:+: " OFFSET ".toList := by decide
  have hzero : "OFFSET".toList <:+: " OFFSET 0 ROWS FETCH NEXT ".toList := by decide
  cases limit with
  | none =>
    cases offset with
    | none => rfl
    | some m => exact pagingOrder_of_infix (happend (happend hoffset _) _) _ _
  | some n =>
    cases offset with
    | none => exact pagingOrder_of_infix (happend (happend hzero _) _) _ _
    | some m =>
      exact pagingOrder_of_infix (happend (happend (happend (happend hoffset _) _) _) _) _ _

/-- The filler stands exactly where a dialect pages behind an ordering. -/
theorem pagingOrder_eq {d : Dialect} {limit offset : Option ℕ} {paging : String}
    (hpaging : d.limitOffset limit offset = .ok paging) :
    pagingOrder limit offset paging =
      if PagesByOffset d limit offset then lit " ORDER BY (SELECT NULL)" else [] := by
  cases d with
  | sqlite | postgres | mysql =>
    cases hpaging
    exact pagingOrder_limitThenOffset _ limit offset
  | mssql =>
    rw [Dialect.limitOffset] at hpaging
    split_ifs at hpaging
    cases hpaging
    exact pagingOrder_fetchNext limit offset
  | informix =>
    cases hpaging
    exact (pagingOrder_of_no_offset (by decide) limit offset).trans (if_neg id).symm
  | oracle =>
    cases hpaging
    exact pagingOrder_fetchNext limit offset

/-- A column with its qualifier, if it has one. -/
def columnTokens (ref : ColumnRef) : List DefToken :=
  if ref.tableName = "" then [.quoted .name ref.columnName]
  else [.quoted .name ref.tableName, .mark '.', .quoted .name ref.columnName]

section Terms

variable {d : Dialect} {refs : List (ColumnRef × SortDir)}

theorem spells_quoteId (id : String) :
    Spells d.quotes (d.write (d.quoteId id)) [.quoted .name id] := by
  rw [write_quoteId]
  exact spells_name id

/-- A column is spelled as its names. -/
theorem spells_columnSql (ref : ColumnRef) :
    Spells d.quotes (d.write (columnSql d ref)) (columnTokens ref) := by
  rw [columnSql, columnTokens]
  split_ifs
  · exact spells_quoteId ref.columnName
  · have hdot : DefMode.start d.quotes '.' = (.idle, [.mark '.']) := by
      cases d <;> decide
    have hclosing : ∀ k s, (DefMode.run d.quotes .idle (d.write (d.quoteId ref.tableName))).1 =
        .after k s → (k.quotes d.quotes).closing ≠ '.' := fun k _ _ =>
      (k.quotes d.quotes).closing_ne_dot
    have h := (spells_quoteId ref.tableName).append_dot hdot (spells_quoteId ref.columnName)
      hclosing
    rwa [write_append, write_append, write_lit, List.append_assoc]

/-- A key and a direction are read as a term. -/
theorem withoutDirection_append (es : List DefToken) (dir : SortDir) :
    ∃ w : List Char, Spells d.quotes dir.sql.toList [.word w] ∧
      withoutDirection (es ++ [.word w]) = es ∧ ∀ c ∈ dir.sql.toList.head?, isDelimiter c := by
  cases dir with
  | asc =>
    refine ⟨"ASC".toList, by cases d <;> decide, ?_, ?_⟩
    · rw [withoutDirection, List.getLast?_concat, if_pos (.inl rfl), List.dropLast_concat]
    · intro c hc
      obtain rfl : ' ' = c := Option.some.inj hc
      rfl
  | desc =>
    refine ⟨"DESC".toList, by cases d <;> decide, ?_, ?_⟩
    · rw [withoutDirection, List.getLast?_concat, if_pos (.inr rfl), List.dropLast_concat]
    · intro c hc
      obtain rfl : ' ' = c := Option.some.inj hc
      rfl

/-- The terms of a clause are its keys. -/
theorem orderTerms_columnClause {key : ColumnRef → Text} {keyTokens : ColumnRef → List DefToken}
    (hkey : ∀ ref, Spells d.quotes (d.write (key ref)) (keyTokens ref))
    (hbalanced : ∀ ref, Balanced (keyTokens ref)) (hne : refs ≠ []) (whenEmpty : Text) :
    orderTerms d.quotes (d.write (columnClause key whenEmpty refs)) =
      refs.map fun p => keyTokens p.1 := by
  have helements : ∀ refs : List (ColumnRef × SortDir), ∃ ess : List (List DefToken),
      List.Forall₂ (fun t es => Spells d.quotes (d.write t) es)
        (refs.map fun p => key p.1 ++ lit p.2.sql) ess ∧
      (∀ es ∈ ess, Balanced es) ∧ ess.map withoutDirection = refs.map fun p => keyTokens p.1 := by
    intro refs
    induction refs with
    | nil => exact ⟨[], .nil, List.forall_mem_nil _, rfl⟩
    | cons p refs ih =>
      obtain ⟨ess, hspells, hess, hmap⟩ := ih
      obtain ⟨w, hdir, hwithout, hhead⟩ := withoutDirection_append (d := d) (keyTokens p.1) p.2
      have hterm : Spells d.quotes (d.write (key p.1 ++ lit p.2.sql))
          (keyTokens p.1 ++ [.word w]) := by
        rw [write_append, write_lit]
        exact (hkey p.1).append hdir hhead
      have hword : Balanced [.word w] := by simp [Balanced, DefToken.depth]
      refine ⟨_, .cons hterm hspells, ?_, ?_⟩
      · exact List.forall_mem_cons.mpr ⟨(hbalanced p.1).append hword, hess⟩
      · rw [List.map_cons, List.map_cons, hwithout, hmap]
  obtain ⟨ess, hspells, hess, hmap⟩ := helements refs
  have hopen : Closes d.quotes " ORDER BY ".toList
      [.word "ORDER".toList, .word "BY".toList] := by
    cases d <;> decide
  have htokens := (hopen.append (spells_commaList hspells)).2
  have hempty : refs.isEmpty = false := List.isEmpty_eq_false_iff.mpr hne
  have hess' : ess ≠ [] := by
    rintro rfl
    cases refs with
    | nil => contradiction
    | cons p refs => cases hmap
  have hread := @elements_intercalate ess hess' hess [] fun _ => rfl
  rw [List.append_nil] at hread
  rw [columnClause, hempty, if_neg Bool.false_ne_true, write_append, write_lit, orderTerms, htokens]
  simp only [List.cons_append, List.nil_append, and_self, if_true]
  rw [hread, hmap]

/-- The filler is one term, a subquery. -/
theorem orderTerms_filler : orderTerms d.quotes (d.write (lit " ORDER BY (SELECT NULL)")) =
    [[.mark '(', .word "SELECT".toList, .word "NULL".toList, .mark ')']] := by
  rw [write_lit]
  cases d <;> decide

end Terms

/-! ## Queries with result columns -/

section Queries

variable {d : Dialect} {call : GenerateCall} {refs : List (ColumnRef × SortDir)}

/-- An ordering whose terms are columns is an ordering by columns. -/
theorem exists_columnOrder {P : ColumnRef → Prop} {order : List OrderByExpr}
    (h : ∀ o ∈ order, ∃ ref, o.1 = .columnRef ref ∧ P ref) :
    ∃ refs, order = columnOrder refs ∧ ∀ p ∈ refs, P p.1 := by
  induction order with
  | nil => exact ⟨[], rfl, List.forall_mem_nil _⟩
  | cons o order ih =>
    obtain ⟨refs, rfl, hrefs⟩ := ih fun o ho => h o (List.mem_cons_of_mem _ ho)
    obtain ⟨ref, href, hP⟩ := h o List.mem_cons_self
    refine ⟨(ref, o.2) :: refs, ?_, List.forall_mem_cons.mpr ⟨hP, hrefs⟩⟩
    have ho : o = (.columnRef ref, o.2) := Prod.ext href rfl
    exact congrArg (· :: columnOrder refs) ho

/-- The terms of a query that is ordered by result columns are legal exactly when no filler is
written. -/
theorem isResultTerm_iff {key : ColumnRef → Text} {keyTokens : ColumnRef → List DefToken}
    (hkey : ∀ ref, Spells d.quotes (d.write (key ref)) (keyTokens ref))
    (hbalanced : ∀ ref, Balanced (keyTokens ref))
    (hrefs : ∀ p ∈ refs, call.IsResultTerm (keyTokens p.1)) {limit offset : Option ℕ}
    {paging : String} (hpaging : d.limitOffset limit offset = .ok paging) :
    (∀ es ∈ orderTerms d.quotes (d.write
      (columnClause key (pagingOrder limit offset paging) refs)), call.IsResultTerm es) ↔
      ¬ (columnOrder refs = [] ∧ PagesByOffset d limit offset) := by
  by_cases hne : refs = []
  · subst hne
    rw [pagingOrder_eq hpaging]
    have hclause (t : Text) : columnClause key t [] = t := rfl
    rw [hclause]
    split_ifs with hpages
    · rw [orderTerms_filler]
      refine iff_of_false (fun h => ?_) fun h => h ⟨rfl, hpages⟩
      obtain ⟨c, hes, -⟩ | ⟨t, c, -, hes, -⟩ := h _ List.mem_cons_self
      · cases hes
      · cases hes
    · exact iff_of_true (List.forall_mem_nil _) fun h => hpages h.2
  · rw [orderTerms_columnClause hkey hbalanced hne]
    refine iff_of_true (fun es hes => ?_) fun h => hne (List.map_eq_nil_iff.mp h.1)
    obtain ⟨p, hp, rfl⟩ := List.mem_map.mp hes
    exact hrefs p hp

theorem isResultTerm_columnTokens {ref : ColumnRef}
    (h : call.IsResultColumn ref.tableName ref.columnName) :
    call.IsResultTerm (columnTokens ref) := by
  rw [columnTokens]
  split_ifs with hempty
  · rw [hempty] at h
    exact .inl ⟨_, rfl, h⟩
  · exact .inr ⟨_, _, hempty, rfl, h⟩

theorem balanced_columnTokens (ref : ColumnRef) : Balanced (columnTokens ref) := by
  rw [columnTokens]
  split_ifs
  · rfl
  · rfl

/-- Every statement of the three is made with a clause. -/
theorem exists_isOrderedWith (hcall : call.HasResultColumns) (horder : call.OrdersByResult)
    {r : GeneratedSql} (hr : generate d call = .ok r) :
    ∃ clause : Text, IsOrderedWith d call clause ∧ orderByText d call = .ok (d.write clause) ∧
      ((∀ es ∈ orderTerms d.quotes (d.write clause), call.IsResultTerm es) ↔
        ¬ (call.orderBy = [] ∧ PagesByOffset d call.limit call.offset)) := by
  have hpaging : ∀ {limit offset : Option ℕ} {f : String → Except Exn GeneratedSql},
      (d.limitOffset limit offset >>= f) = .ok r →
        ∃ paging, d.limitOffset limit offset = .ok paging := by
    intro limit offset f h
    cases hlimit : d.limitOffset limit offset with
    | ok paging => exact ⟨paging, rfl⟩
    | error e =>
      rw [hlimit] at h
      cases h
  cases call with
  | cteSelect ctes table cols w order limit offset distinct group having =>
    obtain ⟨paging, hpaging⟩ := hpaging hr
    obtain ⟨refs, hrefs, hresult⟩ := exists_columnOrder horder
    cases hrefs
    have hordered := @isOrderedWith_cteSelect d refs _ _ _ hpaging ctes table cols w distinct
      group having
    exact ⟨_, hordered, orderByText_of_isOrderedWith hordered, isResultTerm_iff spells_columnSql
      balanced_columnTokens (fun p hp => isResultTerm_columnTokens (hresult p hp)) hpaging⟩
  | joinedSelect table cols joins joined w order limit offset distinct =>
    obtain ⟨paging, hpaging⟩ := hpaging hr
    obtain ⟨refs, hrefs, hresult⟩ := exists_columnOrder horder
    cases hrefs
    have hordered := @isOrderedWith_joinedSelect d refs _ _ _ hpaging table cols joins joined w
      distinct
    exact ⟨_, hordered, orderByText_of_isOrderedWith hordered, isResultTerm_iff spells_columnSql
      balanced_columnTokens (fun p hp => isResultTerm_columnTokens (hresult p hp)) hpaging⟩
  | setOperation table cols w distinct ops order limit offset =>
    obtain ⟨paging, hpaging⟩ := hpaging hr
    obtain ⟨refs, hrefs, hresult⟩ := exists_columnOrder horder
    cases hrefs
    have hordered := @isOrderedWith_setOperation d refs _ _ _ hpaging table cols w distinct ops
    exact ⟨_, hordered, orderByText_of_isOrderedWith hordered, isResultTerm_iff
      (fun ref => spells_quoteId ref.columnName) (fun ref => rfl)
      (fun p hp => .inl ⟨_, rfl, hresult p hp⟩) hpaging⟩
  | _ => exact hcall.elim

/-- Every term of the `ORDER BY` that is read from the text is a result column. -/
def LegalOrderBy (d : Dialect) (call : GenerateCall) : Prop :=
  ∃ clause, orderByText d call = .ok clause ∧
    ∀ es ∈ orderTerms d.quotes clause, call.IsResultTerm es

/-- The `ORDER BY` of a generated text is legal exactly if it is no filler that the text forbids. -/
theorem legalOrderBy_iff_of_ok (hcall : call.HasResultColumns) (horder : call.OrdersByResult)
    {r : GeneratedSql} (hr : generate d call = .ok r) :
    LegalOrderBy d call ↔ ¬ (call.orderBy = [] ∧ PagesByOffset d call.limit call.offset) := by
  obtain ⟨clause, -, htext, hiff⟩ := exists_isOrderedWith hcall horder hr
  refine Iff.trans ⟨?_, fun h => ⟨_, htext, h⟩⟩ hiff
  rintro ⟨cs, hcs, h⟩
  rw [htext] at hcs
  cases hcs
  exact h

/-- A query with result columns has a clause between the same query without order and pagination,
and its pagination. It is ordered by result columns alone, unless there is nothing to order by and
the pagination has the word `OFFSET`. -/
theorem orderBy_legal_iff (hcall : call.HasResultColumns) (horder : call.OrdersByResult)
    {r : GeneratedSql} (hr : generate d call = .ok r) :
    (∃ clause, IsOrderedWith d call clause ∧ orderByText d call = .ok (d.write clause)) ∧
      (LegalOrderBy d call ↔
        ¬ (call.orderBy = [] ∧ PagesByOffset d call.limit call.offset)) := by
  obtain ⟨clause, hordered, htext, -⟩ := exists_isOrderedWith hcall horder hr
  exact ⟨⟨clause, hordered, htext⟩, legalOrderBy_iff_of_ok hcall horder hr⟩

end Queries

/-- The second page of distinct names, in order. -/
def orderedPage : GenerateCall :=
  .cteSelect [] "users" ["name"] none [(.columnRef ⟨"users", "name"⟩, .asc)] (some 5) (some 5)
    true [] none

theorem orderBy_legal_iff_page : LegalOrderBy .mssql orderedPage := by
  have horder : orderedPage.OrdersByResult := by
    intro o ho
    rw [List.mem_singleton.mp ho]
    exact ⟨_, rfl, List.mem_singleton_self _, .inr rfl⟩
  have hcall : orderedPage.HasResultColumns := ⟨rfl, List.cons_ne_nil _ _⟩
  have hr : generate .mssql orderedPage =
      .ok ((generate .mssql orderedPage).toOption.getD ⟨[], [], []⟩) := rfl
  exact (orderBy_legal_iff hcall horder hr).2.mpr fun h => List.cons_ne_nil _ _ h.1

/-- The first page of distinct names, in no order. -/
def unorderedPage : GenerateCall :=
  .cteSelect [] "users" ["name"] none [] (some 5) none true [] none

/-- The filler of a page in no order is no result column. -/
theorem not_legalOrderBy_page : ¬ LegalOrderBy .mssql unorderedPage := by
  have hr : generate .mssql unorderedPage =
      .ok ((generate .mssql unorderedPage).toOption.getD ⟨[], [], []⟩) := rfl
  have hcall : unorderedPage.HasResultColumns := ⟨rfl, List.cons_ne_nil _ _⟩
  rw [legalOrderBy_iff_of_ok hcall (List.forall_mem_nil _) hr]
  exact not_not_intro ⟨rfl, .inl rfl⟩

end CppLinq
