import CppLinq.OrderByTerms
import CppLinq.SetOperations

/-!
# Paging a chain of set operations

The row restriction of a chain stands at the end of the text, behind the ordering, where it
governs the rows of the whole chain. Only Informix writes it before the select list of the
first query, and there it governs that query alone, with the rows of the others behind it. Where
nothing is ordered by and the paging has the word `OFFSET`, the text orders by `(SELECT NULL)`,
and a server that wants columns of the result behind operators refuses it
(`setOperation_pages_whole_iff`).
-/

namespace CppLinq

/-! ## Rows in the order a server delivers them -/

/-- The rows at the positions from `offset` on, `limit` at most. -/
def page (limit offset : Option ℕ) (rows : List Row) : List Row :=
  let rest := rows.drop (offset.getD 0)
  limit.elim rest rest.take

/-- What a server does with the queries of a chain, in whatever order it delivers rows, and
whether it takes an ordering by `(SELECT NULL)` behind operators. -/
structure ChainServer where
  rows : SelectQuery → List Row
  apply : SetOpType → List Row → List Row → List Row
  apply_rows : ∀ type r s, (apply type r s : Multiset Row) = type.apply r s
  sort : List OrderByExpr → List Row → List Row
  sort_perm : ∀ orderBy r, (sort orderBy r).Perm r
  takesFiller : Bool

namespace ChainServer

variable (server : ChainServer)

/-- The rows of operators that each take what stands before them. -/
def readLeft : List Row → List SetOpClause → List Row
  | left, [] => left
  | left, op :: ops => readLeft (server.apply op.opType left (server.rows op.query)) ops

/-- A term of `INTERSECT`s ends, and joins what was read before it. -/
def closeTerm : Option (List Row × SetOpType) → List Row → List Row
  | none, term => term
  | some (left, type), term => server.apply type left term

/-- The rows where `INTERSECT` extends the term it stands behind. -/
def readTight : Option (List Row × SetOpType) → List Row → List SetOpClause → List Row
  | before, term, [] => server.closeTerm before term
  | before, term, op :: ops =>
    if op.opType = .intersect then
      readTight before (server.apply .intersect term (server.rows op.query)) ops
    else readTight (some (server.closeTerm before term, op.opType)) (server.rows op.query) ops

/-- The rows of a chain, from those of its first query. -/
def chain (d : Dialect) (base : List Row) (ops : List SetOpClause) : List Row :=
  if d.intersectFirst then server.readTight none base ops else server.readLeft base ops

section Multisets

variable {server} {db : SelectRows}
  (hdb : ∀ q : SelectQuery, (server.rows q : Multiset Row) = q.rows db)
include hdb

/-- Read from left to right, a chain has the rows of its expression. -/
theorem coe_readLeft (ops : List SetOpClause) {base : List Row} {left : SetExpr}
    (h : (base : Multiset Row) = left.rows db) :
    (server.readLeft base ops : Multiset Row) = (CppLinq.readLeft left ops).rows db := by
  induction ops generalizing base left with
  | nil => exact h
  | cons op ops ih =>
    refine ih ?_
    rw [server.apply_rows, h, hdb]
    rfl

/-- So has it where `INTERSECT` binds tighter. -/
theorem coe_readTight (ops : List SetOpClause) {before : Option (List Row × SetOpType)}
    {before' : Option (SetExpr × SetOpType)} {base : List Row} {term : SetExpr}
    (hbefore : ∀ (r : List Row) (e : SetExpr), (r : Multiset Row) = e.rows db →
      (server.closeTerm before r : Multiset Row) = (CppLinq.closeTerm before' e).rows db)
    (h : (base : Multiset Row) = term.rows db) :
    (server.readTight before base ops : Multiset Row) =
      (CppLinq.readTight before' term ops).rows db := by
  induction ops generalizing before before' base term with
  | nil => exact hbefore _ _ h
  | cons op ops ih =>
    have hquery : (server.rows op.query : Multiset Row) = (SetExpr.query op.query).rows db :=
      hdb op.query
    rw [readTight, CppLinq.readTight]
    split
    · refine ih hbefore ?_
      rw [server.apply_rows, h, hdb]
      rfl
    · refine ih (fun r e hr => ?_) hquery
      rw [closeTerm, server.apply_rows, hbefore _ _ h, hr]
      rfl

/-- In whatever order, the rows are those of the chain as the dialect reads it. -/
theorem coe_chain (d : Dialect) (base : SelectQuery) (ops : List SetOpClause) :
    (server.chain d (server.rows base) ops : Multiset Row) = (d.readChain base ops).rows db := by
  rw [chain, Dialect.readChain]
  split
  · exact coe_readTight hdb ops (fun _ _ h => h) (hdb base)
  · exact coe_readLeft hdb ops (hdb base)

end Multisets

end ChainServer

/-! ## A chain with its paging -/

/-- `limit` and `offset` of a row restriction. -/
structure Restriction where
  limit : Option ℕ := none
  offset : Option ℕ := none

/-- What a text orders by where its paging needs an ordering and it has none. -/
def orderFiller : Text :=
  lit " ORDER BY (SELECT NULL)"

/-- A chain as it is written : a restriction of the first query before its columns, and one
behind the ordering. -/
structure PagedChain where
  base : SelectQuery
  first : Restriction
  ops : List SetOpClause
  orderBy : List OrderByExpr
  last : Restriction

/-- Where a dialect puts the restriction of a chain. -/
def Dialect.pagedChain (d : Dialect) (base : SelectQuery) (ops : List SetOpClause)
    (orderBy : List OrderByExpr) (limit offset : Option ℕ) : PagedChain :=
  match d with
  | .informix => ⟨base, ⟨limit, offset⟩, ops, orderBy, {}⟩
  | _ => ⟨base, {}, ops, orderBy, ⟨limit, offset⟩⟩

namespace PagedChain

/-- The words of a dialect for the last restriction. -/
def lastWords (d : Dialect) (p : PagedChain) : String :=
  (d.limitOffset p.last.limit p.last.offset).toOption.getD ""

/-- The ordering, or what the last restriction needs in its place. -/
def orderClause (d : Dialect) (p : PagedChain) : Gen Text :=
  listClause (pagingOrder p.last.limit p.last.offset (p.lastWords d)) (lit " ORDER BY ") []
    p.orderBy (setOpOrderBy d p.orderBy)

/-- The text of the chain. -/
def text (d : Dialect) (p : PagedChain) : Gen Text := do
  let whereStr ← whereClause d p.base.where_
  let opStr ← operatorsText d p.ops
  let orderStr ← p.orderClause d
  return lit "SELECT " ++ lit (d.selectPrefixLimitOffset p.first.limit p.first.offset) ++
    selectFrom d "*" p.base.isDistinct p.base.columns p.base.tableName ++ whereStr ++ opStr ++
    orderStr ++ lit (p.lastWords d)

/-- The ordering as it stands in the text. -/
def orderText (d : Dialect) (p : PagedChain) : Text :=
  (p.orderClause d (operatorsText d p.ops (whereClause d p.base.where_ (.start 0)).2).2).1

/-- The rows of the text, if the server takes it : the first restriction is that of the first
query, and the last one that of the ordered chain. -/
def rows (server : ChainServer) (d : Dialect) (p : PagedChain) : Option (List Row) :=
  if p.orderText d = orderFiller ∧ server.takesFiller = false then none
  else some (page p.last.limit p.last.offset (server.sort p.orderBy
    (server.chain d (page p.first.limit p.first.offset (server.rows p.base)) p.ops)))

end PagedChain

section Text

variable {d : Dialect} {limit offset : Option ℕ}

theorem selectPrefixLimitOffset_of_ne (hd : d ≠ .informix) (limit offset : Option ℕ) :
    d.selectPrefixLimitOffset limit offset = "" := by
  cases d with
  | informix => contradiction
  | _ => rfl

/-- Only Informix pages the first query. -/
theorem pagedChain_of_ne (hd : d ≠ .informix) (base : SelectQuery) (ops : List SetOpClause)
    (orderBy : List OrderByExpr) :
    d.pagedChain base ops orderBy limit offset = ⟨base, {}, ops, orderBy, ⟨limit, offset⟩⟩ := by
  cases d with
  | informix => contradiction
  | _ => rfl

/-- A dialect has words for every restriction, but SQL Server for a limit of no rows. -/
theorem limitOffset_ok (h : d = .mssql → limit ≠ some 0) (offset : Option ℕ) :
    ∃ words, d.limitOffset limit offset = .ok words := by
  cases d with
  | mssql => exact ⟨_, if_neg (h rfl)⟩
  | _ => exact ⟨_, rfl⟩

/-- A set operation is written as its chain with the paging. -/
theorem generateSetOperation_paged (h : d = .mssql → limit ≠ some 0) (base : SelectQuery)
    (ops : List SetOpClause) (orderBy : List OrderByExpr) :
    generateSetOperation d base.tableName base.columns base.where_ base.isDistinct ops orderBy
      limit offset = .ok (.of ((d.pagedChain base ops orderBy limit offset).text d)) := by
  obtain ⟨words, hwords⟩ := limitOffset_ok h offset
  unfold generateSetOperation
  rw [hwords, setOpList_eq]
  refine congrArg Except.ok (congrArg GeneratedSql.of ?_)
  by_cases hd : d = .informix
  · subst hd
    obtain rfl : words = "" := (Except.ok.inj hwords).symm
    have horder : pagingOrder limit offset "" = [] := by
      unfold pagingOrder
      rw [if_neg (by simp)]
    rw [horder]
    rfl
  · rw [pagedChain_of_ne hd, PagedChain.text, PagedChain.orderClause, PagedChain.lastWords, hwords,
      selectPrefixLimitOffset_of_ne hd, selectPrefixLimitOffset_of_ne hd]
    rfl

/-- An ordering ends with its direction. -/
theorem getLast?_setOpOrderBy {os : List OrderByExpr} (hos : os ≠ []) (c : Context) :
    (setOpOrderBy d os c).1.getLast? = some (.chr 'C') := by
  induction os generalizing c with
  | nil => contradiction
  | cons o os ih =>
    obtain ⟨e, dir⟩ := o
    have hcons : (setOpOrderBy d ((e, dir) :: os) c).1 = (setOpOrderKey d e c).1 ++ lit dir.sql ++
        commaBefore os ++ (setOpOrderBy d os (setOpOrderKey d e c).2).1 := rfl
    have hdir : (lit dir.sql).getLast? = some (.chr 'C') := by cases dir <;> rfl
    rw [hcons]
    cases os with
    | nil =>
      have hrest : commaBefore ([] : List OrderByExpr) ++
          (setOpOrderBy d [] (setOpOrderKey d e c).2).1 = [] := rfl
      rw [List.append_assoc _ (commaBefore _), hrest, List.append_nil, List.getLast?_append, hdir]
      rfl
    | cons o' os =>
      rw [List.getLast?_append, ih (List.cons_ne_nil o' os)]
      rfl

/-- The text orders by the filler exactly where nothing is ordered by and the paging has the word
`OFFSET`. -/
theorem orderText_eq_filler_iff (h : d = .mssql → limit ≠ some 0) (base : SelectQuery)
    (ops : List SetOpClause) (orderBy : List OrderByExpr) :
    (d.pagedChain base ops orderBy limit offset).orderText d = orderFiller ↔
      orderBy = [] ∧ PagesByOffset d limit offset := by
  obtain ⟨words, hwords⟩ := limitOffset_ok h offset
  cases orderBy with
  | nil =>
    have hfiller : orderFiller ≠ [] := by decide
    by_cases hd : d = .informix
    · subst hd
      refine iff_of_false (fun htext => hfiller ?_) fun h => h.2
      rw [← htext]
      rfl
    · rw [pagedChain_of_ne hd]
      have htext : PagedChain.orderText d ⟨base, {}, ops, [], ⟨limit, offset⟩⟩ =
          pagingOrder limit offset words := by
        rw [PagedChain.orderText, PagedChain.orderClause, PagedChain.lastWords, hwords]
        rfl
      rw [htext, pagingOrder_eq hwords]
      by_cases hpages : PagesByOffset d limit offset
      · rw [if_pos hpages]
        exact iff_of_true rfl ⟨rfl, hpages⟩
      · rw [if_neg hpages]
        exact iff_of_false hfiller.symm fun h => hpages h.2
  | cons o os =>
    refine iff_of_false (fun htext => ?_) fun h => nomatch h.1
    have hlast := congrArg List.getLast? htext
    let c := (operatorsText d ops (whereClause d base.where_ (.start 0)).2).2
    have hordered : (d.pagedChain base ops (o :: os) limit offset).orderText d =
        lit " ORDER BY " ++ (setOpOrderBy d (o :: os) c).1 := by
      refine Eq.trans ?_ (List.append_nil _)
      cases d <;> rfl
    rw [hordered, List.getLast?_append, getLast?_setOpOrderBy (List.cons_ne_nil o os)] at hlast
    contradiction

end Text

/-! ## What the restriction governs -/

/-- Paging that takes every row, or none where the operators add none. -/
def RestrictsNothing (types : List SetOpType) (limit offset : Option ℕ) : Prop :=
  limit = none ∧ offset.getD 0 = 0 ∨
    limit = some 0 ∧ SetOpType.union ∉ types ∧ SetOpType.unionAll ∉ types

/-- The rows of a set operation with the operators `types` and an ordering are those of the
ordered chain, at the positions asked for, on every server that takes the filler or refuses it. -/
def PagesWhole (d : Dialect) (takesFiller : Bool) (types : List SetOpType)
    (orderBy : List OrderByExpr) (limit offset : Option ℕ) : Prop :=
  ∀ (base : SelectQuery) (ops : List SetOpClause), ops.map SetOpClause.opType = types →
    generateSetOperation d base.tableName base.columns base.where_ base.isDistinct ops orderBy
      limit offset = .ok (.of ((d.pagedChain base ops orderBy limit offset).text d)) ∧
    ∀ server : ChainServer, server.takesFiller = takesFiller →
      let whole := server.chain d (server.rows base) ops
      (d.pagedChain base ops orderBy limit offset).rows server d =
        some (page limit offset (server.sort orderBy whole)) ∧
      ∀ db : SelectRows, (∀ q : SelectQuery, (server.rows q : Multiset Row) = q.rows db) →
        (whole : Multiset Row) = (d.readChain base ops).rows db

section Pages

variable {limit offset : Option ℕ} {server : ChainServer} {takes : Bool}
  {orderBy : List OrderByExpr}

@[simp] theorem page_nil (limit offset : Option ℕ) : page limit offset [] = [] := by
  cases limit <;> simp [page]

@[simp] theorem page_none (rows : List Row) : page none none rows = rows :=
  rfl

/-- A limit of zero leaves nothing. -/
theorem page_zero (offset : Option ℕ) (rows : List Row) : page (some 0) offset rows = [] := by
  simp [page]

theorem page_all (h : offset.getD 0 = 0) (rows : List Row) : page none offset rows = rows := by
  simp [page, h]

/-- Nothing comes of nothing, but by a union. -/
theorem readLeft_nil {ops : List SetOpClause}
    (hunion : SetOpType.union ∉ ops.map SetOpClause.opType)
    (hall : SetOpType.unionAll ∉ ops.map SetOpClause.opType) : server.readLeft [] ops = [] := by
  induction ops with
  | nil => rfl
  | cons op ops ih =>
    simp only [List.map_cons, List.mem_cons, not_or] at hunion hall
    have happly : server.apply op.opType [] (server.rows op.query) = [] := by
      rw [← Multiset.coe_eq_zero, server.apply_rows]
      cases htype : op.opType with
      | union => exact absurd htype.symm hunion.1
      | unionAll => exact absurd htype.symm hall.1
      | intersect | except => rfl
    rw [ChainServer.readLeft, happly]
    exact ih hunion.2 hall.2

theorem sort_nil (orderBy : List OrderByExpr) : server.sort orderBy [] = [] :=
  List.perm_nil.mp (server.sort_perm orderBy [])

/-- The rows of a text that is not refused. -/
theorem rows_pagedChain {d : Dialect} (hok : d = .mssql → limit ≠ some 0)
    (htakes : orderBy = [] → server.takesFiller = false → ¬ PagesByOffset d limit offset)
    (base : SelectQuery) (ops : List SetOpClause) :
    let p := d.pagedChain base ops orderBy limit offset
    p.rows server d = some (page p.last.limit p.last.offset (server.sort p.orderBy
      (server.chain d (page p.first.limit p.first.offset (server.rows p.base)) p.ops))) := by
  refine if_neg ?_
  rintro ⟨hfiller, hrefused⟩
  obtain ⟨hnone, hpages⟩ := (orderText_eq_filler_iff hok base ops orderBy).mp hfiller
  exact htakes hnone hrefused hpages

/-- Where the paging stands behind the chain, it pages the whole. -/
theorem pagesWhole_of_ne {d : Dialect} (hd : d ≠ .informix) (hok : d = .mssql → limit ≠ some 0)
    (htakes : orderBy = [] → takes = false → ¬ PagesByOffset d limit offset)
    (types : List SetOpType) : PagesWhole d takes types orderBy limit offset := by
  rintro base ops rfl
  refine ⟨generateSetOperation_paged hok base ops orderBy, ?_⟩
  rintro server rfl whole
  refine ⟨?_, fun db hdb => server.coe_chain hdb d base ops⟩
  rw [rows_pagedChain hok htakes, pagedChain_of_ne hd]
  rfl

/-- Informix has no filler. -/
theorem rows_informix (base : SelectQuery) (ops : List SetOpClause) :
    (Dialect.informix.pagedChain base ops orderBy limit offset).rows server .informix =
      some (server.sort orderBy
        (server.chain .informix (page limit offset (server.rows base)) ops)) :=
  rows_pagedChain (d := .informix) (fun hd => nomatch hd) (fun _ _ => id) base ops

/-- Where the paging leaves out no row, it may stand anywhere. -/
theorem pagesWhole_of_restrictsNothing {types : List SetOpType}
    (h : RestrictsNothing types limit offset) :
    PagesWhole .informix takes types orderBy limit offset := by
  rintro base ops rfl
  refine ⟨generateSetOperation_paged (d := .informix) (fun hd => nomatch hd) base ops orderBy,
    fun server _ => ⟨?_, fun db hdb => server.coe_chain hdb .informix base ops⟩⟩
  rw [rows_informix]
  refine congrArg some ?_
  rcases h with ⟨rfl, hoffset⟩ | ⟨rfl, hunion, hall⟩
  · rw [page_all hoffset, page_all hoffset]
  · have hchain : server.chain .informix [] ops = [] := readLeft_nil hunion hall
    rw [page_zero, page_zero, hchain, sort_nil]

end Pages

/-! ### Where it governs the first query alone -/

/-- A server that delivers the rows of its tables as they stand there. -/
def listServer (takes : Bool) (tables : String → List Row) : ChainServer where
  rows q := if q.isDistinct then (tables q.tableName).dedup else tables q.tableName
  apply
    | .union, r, s => (r ++ s).dedup
    | .unionAll, r, s => r ++ s
    | .intersect, r, s => r.dedup.filter (· ∈ s)
    | .except, r, s => r.dedup.filter (· ∉ s)
  apply_rows type r s := by
    cases type <;> simp [SetOpType.apply]
  sort _ r := r
  sort_perm _ _ := List.Perm.refl _
  takesFiller := takes

/-- The tables of a first and a second query, a table with the rows `rest`, and empty ones. -/
def fourTables (base second rest : List Row) : String → List Row
  | "base" => base
  | "second" => second
  | "rest" => rest
  | _ => []

/-- A query of a table without a condition. -/
def baseQuery : SelectQuery :=
  ⟨"base", [], none, false⟩

/-- An operator that changes nothing where the rows are among those of `rest`. -/
def idleOp (type : SetOpType) : SetOpClause :=
  operatorOn (if type = .intersect then "rest" else "empty") type

/-- An operator that adds the rows of `rest` where it can. -/
def fillOp (type : SetOpType) : SetOpClause :=
  operatorOn (if type = .except then "empty" else "rest") type

section Informix

variable {base second rest : List Row} {types : List SetOpType} {type : SetOpType}
  {limit offset : Option ℕ} {takes : Bool} {orderBy : List OrderByExpr}

/-- Operators that change nothing leave the rows. -/
theorem readLeft_idle {rows : List Row} (hrows : rows.Nodup) (hrest : rows ⊆ rest) :
    (listServer takes (fourTables base second rest)).readLeft rows (types.map idleOp) = rows := by
  induction types with
  | nil => rfl
  | cons type types ih =>
    have happly : (listServer takes (fourTables base second rest)).apply (idleOp type).opType rows
        ((listServer takes (fourTables base second rest)).rows (idleOp type).query) = rows := by
      cases type with
      | union => exact (congrArg List.dedup (List.append_nil rows)).trans hrows.dedup
      | unionAll => exact List.append_nil rows
      | intersect =>
        change rows.dedup.filter (· ∈ rest) = rows
        rw [hrows.dedup]
        exact List.filter_eq_self.mpr fun r hr => by simpa using hrest hr
      | except =>
        change rows.dedup.filter (· ∉ []) = rows
        rw [hrows.dedup]
        exact List.filter_eq_self.mpr fun r hr => by simp
    rw [List.map_cons, ChainServer.readLeft, happly]
    exact ih

/-- Rows come up behind an empty first query as soon as there is a union. -/
theorem readLeft_fill {rows : List Row} (hrest : rows ⊆ rest) (hne : rest ≠ [])
    (h : rows ≠ [] ∨ SetOpType.union ∈ types ∨ SetOpType.unionAll ∈ types) :
    (listServer takes (fourTables base second rest)).readLeft rows (types.map fillOp) ≠ [] := by
  induction types generalizing rows with
  | nil => exact h.resolve_right (by simp)
  | cons type types ih =>
    rw [List.map_cons, ChainServer.readLeft]
    cases type with
    | union =>
      change (listServer takes _).readLeft (rows ++ rest).dedup _ ≠ []
      refine ih ?_ (Or.inl ?_)
      · intro r hr
        rcases List.mem_append.mp (List.mem_dedup.mp hr) with hr | hr
        · exact hrest hr
        · exact hr
      · obtain ⟨r, hr⟩ := List.exists_mem_of_ne_nil rest hne
        exact List.ne_nil_of_mem (List.mem_dedup.mpr (List.mem_append_right rows hr))
    | unionAll =>
      change (listServer takes _).readLeft (rows ++ rest) _ ≠ []
      refine ih (List.append_subset.mpr ⟨hrest, List.Subset.refl _⟩) (Or.inl ?_)
      simp [hne]
    | intersect =>
      change (listServer takes _).readLeft (rows.dedup.filter (· ∈ rest)) _ ≠ []
      have hsame : rows.dedup.filter (· ∈ rest) = rows.dedup :=
        List.filter_eq_self.mpr fun r hr => by simpa using hrest (List.mem_dedup.mp hr)
      rw [hsame]
      refine ih (fun r hr => hrest (List.mem_dedup.mp hr)) ?_
      simpa using h
    | except =>
      change (listServer takes _).readLeft (rows.dedup.filter (· ∉ [])) _ ≠ []
      have hsame : rows.dedup.filter (· ∉ ([] : List Row)) = rows.dedup :=
        List.filter_eq_self.mpr fun r hr => by simp
      rw [hsame]
      refine ih (fun r hr => hrest (List.mem_dedup.mp hr)) ?_
      simpa using h

/-- A limit of no rows stops the first query alone. -/
theorem not_pagesWhole_zero (h : SetOpType.union ∈ types ∨ SetOpType.unionAll ∈ types) :
    ¬ PagesWhole .informix takes types orderBy (some 0) offset := by
  intro hpages
  have htypes : (types.map fillOp).map SetOpClause.opType = types := by
    rw [List.map_map]
    exact List.map_id types
  have hrows := ((hpages baseQuery (types.map fillOp) htypes).2
    (listServer takes (fourTables [] [] [[]])) rfl).1
  rw [rows_informix, page_zero] at hrows
  exact readLeft_fill (List.nil_subset _) (List.cons_ne_nil _ _) (Or.inr h) (Option.some.inj hrows)

/-- It is enough that the first operator gives other rows for the restricted query. -/
theorem not_pagesWhole_cons {restricted whole : List Row}
    (hrestricted : (listServer takes (fourTables [] [] [])).apply type (page limit offset base)
      second = restricted)
    (hwhole : (listServer takes (fourTables [] [] [])).apply type base second = whole)
    (hnodup : restricted.Nodup) (hnodup' : whole.Nodup)
    (hne : restricted ≠ page limit offset whole) :
    ¬ PagesWhole .informix takes (type :: types) orderBy limit offset := by
  intro hpages
  have htypes : (operatorOn "second" type :: types.map idleOp).map SetOpClause.opType =
      type :: types := by
    rw [List.map_cons, List.map_map]
    exact congrArg (type :: ·) (List.map_id types)
  have hpage := ((hpages baseQuery (operatorOn "second" type :: types.map idleOp) htypes).2
    (listServer takes (fourTables base second (restricted ++ whole))) rfl).1
  rw [rows_informix] at hpage
  have hrows := Option.some.inj hpage
  have hleft : (listServer takes (fourTables base second (restricted ++ whole))).readLeft restricted
      (types.map idleOp) = restricted :=
    readLeft_idle hnodup (List.subset_append_left _ _)
  have hright : (listServer takes (fourTables base second (restricted ++ whole))).readLeft whole
      (types.map idleOp) = whole :=
    readLeft_idle hnodup' (List.subset_append_right _ _)
  change (listServer takes _).readLeft ((listServer takes (fourTables [] [] [])).apply type
      (page limit offset base) second) (types.map idleOp) = page limit offset
    ((listServer takes _).readLeft ((listServer takes (fourTables [] [] [])).apply type base second)
      (types.map idleOp)) at hrows
  rw [hrestricted, hwhole, hleft, hright] at hrows
  exact hne hrows

/-- Elsewhere there are tables for which the first query is cut too early. -/
theorem not_pagesWhole_union (htype : type = .union ∨ type = .unionAll) (hlimit : limit ≠ some 0)
    (h : ¬ (limit = none ∧ offset.getD 0 = 0)) :
    ¬ PagesWhole .informix takes (type :: types) orderBy limit offset := by
  -- more rows than the page has, all of them in the second query
  let rows := (List.range (offset.getD 0 + limit.getD 0 + 1)).map fun i =>
    List.replicate i BoundValue.null
  have hnodup : rows.Nodup := by
    refine List.Nodup.map (fun i j hij => ?_) List.nodup_range
    simpa using congrArg List.length hij
  have happly : (listServer takes (fourTables [] [] [])).apply type [] rows = rows := by
    rcases htype with rfl | rfl
    · exact hnodup.dedup
    · rfl
  have hlength : rows.length = offset.getD 0 + limit.getD 0 + 1 := by simp [rows]
  have hpage : (listServer takes (fourTables [] [] [])).apply type (page limit offset []) rows =
      rows := by
    rw [page_nil]
    exact happly
  refine not_pagesWhole_cons hpage happly hnodup hnodup fun hsame => ?_
  have hshort := congrArg List.length hsame
  cases limit with
  | none =>
    simp only [page, Option.elim, List.length_drop, hlength, Option.getD_none] at hshort
    exact h ⟨rfl, by omega⟩
  | some n =>
    simp only [page, Option.elim, List.length_take, List.length_drop, hlength,
      Option.getD_some] at hshort
    omega

/-- A second query that leaves the last of the rows alone. -/
theorem exists_leaves_last (takes : Bool) (htype : type = .intersect ∨ type = .except)
    {rows : List Row} {row : Row} (hrows : rows.Nodup) (hrow : row ∉ rows) :
    ∃ second, (listServer takes (fourTables [] [] [])).apply type (rows ++ [row]) second = [row] ∧
      (listServer takes (fourTables [] [] [])).apply type rows second = [] ∧
      (listServer takes (fourTables [] [] [])).apply type [row] second = [row] := by
  have hnodup : (rows ++ [row]).dedup = rows ++ [row] := by
    refine List.Nodup.dedup (List.nodup_append'.mpr ⟨hrows, List.nodup_singleton row, ?_⟩)
    simpa using hrow
  have hone : [row].dedup = [row] := (List.nodup_singleton row).dedup
  rcases htype with rfl | rfl
  · have hnone : rows.filter (· ∈ [row]) = [] :=
      List.filter_eq_nil_iff.mpr fun r hr => by
        simp only [List.mem_singleton, decide_eq_true_eq]
        exact fun h => hrow (h ▸ hr)
    refine ⟨[row], ?_, ?_, ?_⟩
    · change (rows ++ [row]).dedup.filter (· ∈ [row]) = [row]
      rw [hnodup, List.filter_append, hnone]
      simp
    · change rows.dedup.filter (· ∈ [row]) = []
      rw [hrows.dedup, hnone]
    · change [row].dedup.filter (· ∈ [row]) = [row]
      rw [hone]
      simp
  · have hnone : rows.filter (· ∉ rows) = [] :=
      List.filter_eq_nil_iff.mpr fun r hr => by simpa using hr
    refine ⟨rows, ?_, ?_, ?_⟩
    · change (rows ++ [row]).dedup.filter (· ∉ rows) = [row]
      rw [hnodup, List.filter_append, hnone]
      simp [hrow]
    · change rows.dedup.filter (· ∉ rows) = []
      rw [hrows.dedup, hnone]
    · change [row].dedup.filter (· ∉ rows) = [row]
      rw [hone]
      simp [hrow]

/-- So are there for `INTERSECT` and `EXCEPT`. -/
theorem not_pagesWhole_intersect (htype : type = .intersect ∨ type = .except)
    (hlimit : limit ≠ some 0) (h : ¬ (limit = none ∧ offset.getD 0 = 0)) :
    ¬ PagesWhole .informix takes (type :: types) orderBy limit offset := by
  -- the last row of the first query is the whole result
  let rows (k : ℕ) : List Row := (List.range k).map fun i => List.replicate i BoundValue.null
  have hnodup : ∀ k, (rows k).Nodup := by
    refine fun k => List.Nodup.map (fun i j hij => ?_) List.nodup_range
    simpa using congrArg List.length hij
  have hlast : ∀ k, List.replicate k BoundValue.null ∉ rows k := by
    intro k hmem
    obtain ⟨i, hi, hlength⟩ := List.mem_map.mp hmem
    have hik : i = k := by simpa using congrArg List.length hlength
    exact absurd (List.mem_range.mp hi) (by omega)
  have hlength : ∀ k, (rows k).length = k := by simp [rows]
  by_cases hoffset : offset.getD 0 = 0
  · obtain ⟨n, rfl⟩ : ∃ n, limit = some (n + 1) := by
      cases limit with
      | none => exact absurd ⟨rfl, hoffset⟩ h
      | some n =>
        cases n with
        | zero => exact absurd rfl hlimit
        | succ n => exact ⟨n, rfl⟩
    obtain ⟨second, hwhole, hfront, -⟩ :=
      exists_leaves_last takes htype (hnodup (n + 1)) (hlast (n + 1))
    have hpage : page (some (n + 1)) offset
        (rows (n + 1) ++ [List.replicate (n + 1) BoundValue.null]) = rows (n + 1) := by
      simp only [page, hoffset, Option.elim, List.drop_zero]
      exact List.take_left' (hlength (n + 1))
    have hrestricted := (congrArg (fun r =>
      (listServer takes (fourTables [] [] [])).apply type r second) hpage).trans hfront
    refine not_pagesWhole_cons hrestricted hwhole List.nodup_nil (List.nodup_singleton _) ?_
    simp [page, hoffset]
  · obtain ⟨second, hwhole, -, hrow⟩ :=
      exists_leaves_last takes htype (hnodup (offset.getD 0)) (hlast (offset.getD 0))
    have hpage : page limit offset (rows (offset.getD 0) ++
        [List.replicate (offset.getD 0) BoundValue.null]) =
          [List.replicate (offset.getD 0) BoundValue.null] := by
      have hdrop : (rows (offset.getD 0) ++
          [List.replicate (offset.getD 0) BoundValue.null]).drop (offset.getD 0) =
            [List.replicate (offset.getD 0) BoundValue.null] :=
        List.drop_left' (hlength (offset.getD 0))
      rw [page, hdrop]
      cases limit with
      | none => rfl
      | some n =>
        cases n with
        | zero => exact absurd rfl hlimit
        | succ n => simp
    have hnone : page limit offset [List.replicate (offset.getD 0) BoundValue.null] = [] := by
      have hdrop : [List.replicate (offset.getD 0) BoundValue.null].drop (offset.getD 0) = [] :=
        List.drop_eq_nil_of_le (by simp; omega)
      rw [page, hdrop]
      cases limit <;> simp
    have hrestricted := (congrArg (fun r =>
      (listServer takes (fourTables [] [] [])).apply type r second) hpage).trans hrow
    refine not_pagesWhole_cons hrestricted hwhole (List.nodup_singleton _)
      (List.nodup_singleton _) ?_
    rw [hnone]
    exact List.cons_ne_nil _ _

/-- On Informix the restriction has to restrict nothing. -/
theorem restrictsNothing_of_pagesWhole (htypes : types ≠ [])
    (h : PagesWhole .informix takes types orderBy limit offset) :
    RestrictsNothing types limit offset := by
  by_contra hnot
  rw [RestrictsNothing, not_or] at hnot
  obtain ⟨hall, hzero⟩ := hnot
  by_cases hlimit : limit = some 0
  · subst hlimit
    refine not_pagesWhole_zero ?_ h
    by_contra hunion
    rw [not_or] at hunion
    exact hzero ⟨rfl, hunion⟩
  · obtain ⟨type, types, rfl⟩ := List.exists_cons_of_ne_nil htypes
    by_cases htype : type = .union ∨ type = .unionAll
    · exact not_pagesWhole_union htype hlimit hall h
    · have hother : type = .intersect ∨ type = .except := by
        cases type with
        | union | unionAll => simp at htype
        | intersect => exact Or.inl rfl
        | except => exact Or.inr rfl
      exact not_pagesWhole_intersect hother hlimit hall h

end Informix

/-- A server that refuses the filler has no rows for the text. -/
theorem not_pagesWhole_filler {d : Dialect} {limit offset : Option ℕ} (types : List SetOpType)
    (hlimit : d = .mssql → limit ≠ some 0) (hpages : PagesByOffset d limit offset) :
    ¬ PagesWhole d false types [] limit offset := by
  intro h
  have htypes : (types.map idleOp).map SetOpClause.opType = types := by
    rw [List.map_map]
    exact List.map_id types
  have hrows := ((h baseQuery (types.map idleOp) htypes).2 (listServer false fun _ => []) rfl).1
  have hfiller := (orderText_eq_filler_iff hlimit baseQuery (types.map idleOp) []).mpr
    ⟨rfl, hpages⟩
  rw [PagedChain.rows, if_pos ⟨hfiller, rfl⟩] at hrows
  contradiction

/-- The paging of a set operation applies to the whole of it, for all queries and whatever a
server delivers, just when the dialect is not Informix or there is nothing to restrict, and when
there is an ordering, or the server takes the filler, or none is written. -/
theorem setOperation_pages_whole_iff (d : Dialect) (takesFiller : Bool) {types : List SetOpType}
    (orderBy : List OrderByExpr) {limit : Option ℕ} (offset : Option ℕ) (htypes : types ≠ [])
    (hlimit : d = .mssql → limit ≠ some 0) :
    PagesWhole d takesFiller types orderBy limit offset ↔
      (d = .informix → RestrictsNothing types limit offset) ∧
        (orderBy = [] → takesFiller = false → ¬ PagesByOffset d limit offset) := by
  constructor
  · intro h
    refine ⟨?_, ?_⟩
    · rintro rfl
      exact restrictsNothing_of_pagesWhole htypes h
    · rintro rfl rfl hpages
      exact not_pagesWhole_filler types hlimit hpages h
  · rintro ⟨hnothing, htakes⟩
    by_cases hd : d = .informix
    · subst hd
      exact pagesWhole_of_restrictsNothing (hnothing rfl)
    · exact pagesWhole_of_ne hd hlimit htakes types

/-- Two queries behind one another, ten rows from the twenty-first on by their names, on
PostgreSQL. -/
theorem unionAll_pages_whole :
    PagesWhole .postgres false [.unionAll] [(.columnRef ⟨"", "name"⟩, .asc)] (some 10) (some 20) :=
  (setOperation_pages_whole_iff .postgres false _ (some 20) (List.cons_ne_nil _ _)
    fun h => nomatch h).mpr ⟨fun h => (nomatch h), fun h => nomatch h⟩

/-- The first row of two queries behind one another is on Informix the first row of the first
query, and all rows of the second. -/
theorem not_pagesWhole_informix_unionAll :
    ¬ PagesWhole .informix true [.unionAll] [] (some 1) none :=
  not_pagesWhole_union (Or.inr rfl) (by decide) (by simp)

end CppLinq
