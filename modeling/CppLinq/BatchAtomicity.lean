import CppLinq.TransactionScope

/-!
# Batch operations are all or nothing

On a connection without an open transaction, a batch operation either executes the
statement for each of its rows or chunks once and commits, or it throws what the first call
that failed threw and leaves the database as it was. There are two exceptions
(`allOrNothing_iff`) : a table without columns to insert, whose rows an `insert_many` by
arrays drops, and rows that an ODBC driver leaves out of an array without an error.
-/

namespace CppLinq

/-! ## The effect of calls that succeed -/

/-- The database after a call that does not throw. -/
def Database.apply {δ : Type} (server : Server δ) (db : Database δ) (c : DriverCall) :
    Database δ :=
  db.step server [] false c

/-- The database after calls that do not throw. -/
def Database.applyAll {δ : Type} (server : Server δ) (db : Database δ) (cs : List DriverCall) :
    Database δ :=
  cs.foldl (Database.apply server) db

/-- The effect of statements, one after another. -/
def Server.execAll {δ : Type} (server : Server δ) (sts : List (Text × List BoundValue)) (x : δ) :
    δ :=
  sts.foldl (fun x st => server.exec st.1 st.2 x) x

section Apply

variable {δ : Type} {server : Server δ} {db : Database δ} {log : List DriverCall}

theorem Database.applyAll_append (cs ds : List DriverCall) :
    db.applyAll server (cs ++ ds) = (db.applyAll server cs).applyAll server ds :=
  List.foldl_append

theorem Database.step_false (db : Database δ) (log : List DriverCall) (c : DriverCall) :
    db.step server log false c = db.apply server c := by
  cases c <;> rfl

/-- Calls that do not throw have their effects. -/
theorem Server.after_accepts {cs : List DriverCall} (h : (server.driver db).Accepts log cs) :
    server.after db (log ++ cs) = (server.after db log).applyAll server cs := by
  induction cs generalizing log with
  | nil => rw [List.append_nil]; rfl
  | cons c cs ih =>
    obtain ⟨hc, hcs⟩ := h
    have hlog : log ++ c :: cs = log ++ [c] ++ cs := by simp
    rw [hlog, ih hcs, Server.after_concat, hc]
    exact congrArg (fun db => Database.applyAll server db cs) (Database.step_false _ _ _)

/-- Bind values to the next positions. -/
theorem Database.applyAll_bindCalls (vs : List BoundValue) {k : ℕ} (hk : db.bound.length = k) :
    db.applyAll server (bindCalls k vs) = { db with bound := db.bound ++ vs } := by
  induction vs generalizing db k with
  | nil => rw [List.append_nil]; rfl
  | cons v vs ih =>
    have hbind : db.apply server (.bind k v) = { db with bound := db.bound ++ [v] } := by
      simp [Database.apply, Database.step, bindAt, hk]
    rw [bindCalls, Database.applyAll, List.foldl_cons, hbind]
    refine (ih (by simp [hk])).trans ?_
    simp

/-- Bind values from the first position on, and execute. -/
theorem Database.applyAll_execute (db : Database δ) (h : db.bound = [])
    (vs : List BoundValue) : db.applyAll server (bindCalls 0 vs ++ [.executeNonQuery]) =
      { db with store := db.store.write (server.exec db.sql vs), bound := vs } := by
  rw [Database.applyAll_append, Database.applyAll_bindCalls vs (by rw [h]; rfl), h]
  rfl

/-- A row that is taken into an array, whatever the database holds. -/
def Server.TakesRow {δ : Type} (server : Server δ) (sql : Text) (row : List BoundValue) : Prop :=
  server.kind = .odbc → ∀ x, server.leavesOut sql row x = false

theorem Server.execArrayRow_eq {sql : Text} {row : List BoundValue} (h : server.TakesRow sql row)
    (x : δ) : server.execArrayRow sql x row = server.exec sql row x := by
  refine if_neg ?_
  rintro ⟨hkind, hleft⟩
  rw [h hkind x] at hleft
  contradiction

/-- An array of rows that are all taken is the statement for each of them. -/
theorem Server.execArray_eq {α : Type} {sql : Text} {row : α → List BoundValue} {xs : List α}
    (h : ∀ st ∈ xs.map fun x => (sql, row x), server.TakesRow st.1 st.2) (s : δ) :
    server.execArray sql (xs.map row) s = server.execAll (xs.map fun x => (sql, row x)) s := by
  induction xs generalizing s with
  | nil => rfl
  | cons x xs ih =>
    obtain ⟨hx, hxs⟩ := List.forall_mem_cons.mp h
    refine (ih hxs _).trans ?_
    rw [Server.execArrayRow_eq hx]
    rfl

/-- Rows of an array are executed one after another. -/
theorem Server.execArray_append (sql : Text) (rows rows' : List (List BoundValue)) (x : δ) :
    server.execArray sql (rows ++ rows') x =
      server.execArray sql rows' (server.execArray sql rows x) :=
  List.foldl_append

/-- A batch is the array of its rows. -/
theorem Server.execBatch_eq (sql : Text) {α : Type} {colCount : ℕ} {row : α → List BoundValue}
    (hrow : ∀ x, (row x).length = colCount) (hcol : colCount ≠ 0) (xs : List α) (x : δ) :
    server.execBatch sql (xs.map row).flatten colCount xs.length x =
      server.execArray sql (xs.map row) x := by
  have hrows : batchRows (xs.map row).flatten colCount xs.length = xs.map row := by
    rw [batchRows, ← List.flatMap_def, parts_flatMap row hrow]
  rw [Server.execBatch]
  split
  · rename_i hempty
    rw [List.eq_nil_of_length_eq_zero (hempty.resolve_right hcol)]
    rfl
  · rw [hrows]

end Apply

/-! ## The effect of a plan -/

section Plans

variable {δ : Type} {server : Server δ} {α : Type}

/-- Arrays leave what the statements leave one by one. -/
theorem seen_arrays (sql : Text) {colCount : ℕ} {row : α → List BoundValue}
    (hrow : ∀ x, (row x).length = colCount) (hcol : colCount ≠ 0) (parts : List (List α))
    (db : Database δ) :
    (db.applyAll server (BatchPlan.arrays sql colCount row parts).within).store.seen =
      server.execArray sql (parts.flatten.map row) db.store.seen := by
  induction parts generalizing db with
  | nil => rfl
  | cons part parts ih =>
    have hwithin : (BatchPlan.arrays sql colCount row (part :: parts)).within =
        .insertManyBatch sql (part.map row).flatten colCount (part.map row).length ::
          (BatchPlan.arrays sql colCount row parts).within := rfl
    rw [hwithin, Database.applyAll, List.foldl_cons]
    refine (ih _).trans ?_
    have hseen : (db.apply server (.insertManyBatch sql (part.map row).flatten colCount
        (part.map row).length)).store.seen = server.execArray sql (part.map row) db.store.seen := by
      rw [← Server.execBatch_eq sql hrow hcol, List.length_map]
      exact Store.seen_write _ _
    rw [hseen, List.flatten_cons, List.map_append, Server.execArray_append]

/-- So do rows of a prepared statement. -/
theorem seen_rows {sql : Text} (row : α → List BoundValue) (xs : List α) {db : Database δ}
    (hsql : db.sql = sql) :
    (db.applyAll server (BatchPlan.rows sql row xs).within).store.seen =
      server.execAll (xs.map fun x => (sql, row x)) db.store.seen := by
  induction xs generalizing db with
  | nil => rfl
  | cons x xs ih =>
    have hwithin : (BatchPlan.rows sql row (x :: xs)).within =
        .reset :: (bindCalls 0 (row x) ++ [.executeNonQuery]) ++
          (BatchPlan.rows sql row xs).within := rfl
    have hunit : db.applyAll server (.reset :: (bindCalls 0 (row x) ++ [.executeNonQuery])) =
        { db with store := db.store.write (server.exec db.sql (row x)), bound := row x } :=
      Database.applyAll_execute { db with bound := [] } rfl (row x)
    rw [hwithin, Database.applyAll_append, hunit, ih (by exact hsql), Store.seen_write, hsql]
    rfl

/-- So do statements of lists. -/
theorem seen_statements (sql : ℕ → Text) (value : α → BoundValue) (parts : List (List α))
    (db : Database δ) :
    (db.applyAll server (BatchPlan.statements sql value parts).within).store.seen =
      server.execAll (parts.map fun part => (sql part.length, part.map value)) db.store.seen := by
  induction parts generalizing db with
  | nil => rfl
  | cons part parts ih =>
    have hwithin : (BatchPlan.statements sql value (part :: parts)).within =
        .prepare (sql part.length) :: (bindCalls 0 (part.map value) ++ [.executeNonQuery]) ++
          (BatchPlan.statements sql value parts).within := rfl
    have hunit : db.applyAll server
        (.prepare (sql part.length) :: (bindCalls 0 (part.map value) ++ [.executeNonQuery])) =
        { store := db.store.write (server.exec (sql part.length) (part.map value)),
          sql := sql part.length, bound := part.map value } :=
      Database.applyAll_execute ⟨db.store, sql part.length, []⟩ rfl (part.map value)
    rw [hwithin, Database.applyAll_append, hunit, ih, Store.seen_write]
    rfl

/-- The database when the transaction of a plan begins. -/
def BatchPlan.begun (server : Server δ) (p : BatchPlan) (db : Database δ) : Database δ :=
  db.applyAll server (p.before ++ [.beginTransaction])

/-- Before its work a plan only begins a transaction. -/
theorem begun_store (p : BatchPlan) (db : Database δ) :
    (p.begun server db).store = db.store.begin server.kind.nesting := by
  obtain ⟨_ | sql, units⟩ := p <;> rfl

theorem begun_sql {p : BatchPlan} {sql : Text} (h : p.prepared = some sql) (db : Database δ) :
    (p.begun server db).sql = sql := by
  obtain ⟨prepared, units⟩ := p
  change prepared = some sql at h
  subst h
  rfl

theorem not_controlsTransaction_within (p : BatchPlan) :
    ∀ c ∈ p.within, ¬ c.ControlsTransaction := by
  intro c hc
  obtain ⟨u, -, hc⟩ := List.mem_flatMap.mp hc
  cases u with
  | array sql colCount rows =>
    rw [List.mem_singleton.mp hc]
    exact id
  | again params =>
    simp only [BatchUnit.calls, List.mem_cons, List.mem_append, mem_bindCalls,
      List.not_mem_nil, or_false] at hc
    rcases hc with rfl | ⟨i, v, -, rfl⟩ | rfl <;> exact id
  | own sql params =>
    simp only [BatchUnit.calls, List.mem_cons, List.mem_append, mem_bindCalls,
      List.not_mem_nil, or_false] at hc
    rcases hc with rfl | ⟨i, v, -, rfl⟩ | rfl <;> exact id

/-! ## How a plan ends -/

variable {db : Database δ} {conn : Connection} {d : δ}

/-- Statements that are prepared before a transaction change nothing. -/
theorem after_before_settled (h : db.store.Settled d) {p : BatchPlan} {cs : List DriverCall}
    (hcs : cs <+: p.before) : (server.after db cs).store.Settled d := by
  obtain ⟨_ | sql, units⟩ := p
  · rw [List.prefix_nil.mp hcs]
    exact h
  · rcases cs with _ | ⟨c, cs⟩
    · exact h
    · obtain ⟨rfl, hnil⟩ := List.cons_prefix_cons.mp hcs
      rw [List.prefix_nil.mp hnil, ← List.nil_append [_], Server.after_concat]
      change (Database.step server db [] _ _).store.Settled d
      cases (server.driver db [] (.prepare sql)).isSome <;> exact h

/-- A commit that throws, and the rollback after it. -/
theorem after_commit_failed {log : List DriverCall} {e : Exn}
    (h : (server.after db log).store.Open d) (hcommit : server.driver db log .commit = some e) :
    (server.after db (log ++ [.commit, .rollback])).store.Settled d := by
  have hlog : log ++ [DriverCall.commit, .rollback] = log ++ [.commit] ++ [.rollback] := by simp
  rw [hlog, Server.after_concat, Server.after_concat, hcommit]
  by_cases hkind : server.kind = .sqlite
  · simp only [Database.step, Option.isSome_some, if_true, if_pos hkind]
    exact h.rollback
  · simp only [Database.step, Option.isSome_some, if_true, if_neg hkind]
    exact h.rollback.rollback

/-- A plan that runs throws what its first failed call throws and leaves the database as it
was, or has its effect. -/
theorem run_plan_cases (conn : Connection) (h : db.store.Settled d) (p : BatchPlan) :
    (∃ e log, p.run (conn.on server db) [] = (.error e, log) ∧
      (server.driver db).Throws [] log e ∧ (server.after db log).store.Settled d) ∨
    ∃ log, p.run (conn.on server db) [] = (.ok (), log) ∧
      (server.driver db).Accepts [] log ∧ (server.after db log).store.Settled
        ((p.begun server db).applyAll server p.within).store.seen := by
  have hdriver : (conn.on server db).driver = server.driver db := rfl
  rw [BatchPlan.run, Session.bind_eq, hdriver]
  rcases callAll_cases (server.driver db) p.before [] with
    ⟨hbefore, hrun⟩ | ⟨e, pre, c, hpre, hbefore, hc, hrun⟩
  · rw [hrun, List.nil_append]
    simp only
    rw [Connection.transaction_eq, hdriver]
    cases hbegin : server.driver db p.before .beginTransaction with
    | some e =>
      refine Or.inl ⟨e, _, rfl, throws_of_accepts hbefore (by simpa using hbegin) [], ?_⟩
      rw [Server.after_concat, hbegin]
      exact after_before_settled h (List.prefix_refl p.before)
    | none =>
      have hbegun : (server.driver db).Accepts [] (p.before ++ [.beginTransaction]) :=
        (accepts_append _ _).mpr ⟨hbefore, by simpa using hbegin⟩
      have hafter : server.after db (p.before ++ [.beginTransaction]) = p.begun server db :=
        Server.after_accepts hbegun
      have hopen : (server.after db (p.before ++ [.beginTransaction])).store.Open d := by
        rw [hafter, begun_store]
        exact h.begin _
      simp only
      rcases callAll_cases (server.driver db) p.within (p.before ++ [.beginTransaction]) with
        ⟨hwithin, hrun⟩ | ⟨e, pre, c, hpre, hwithin, hc, hrun⟩
      · have hall := (accepts_append _ _).mpr ⟨hbegun, by simpa using hwithin⟩
        have hopen' := server.after_open hopen (not_controlsTransaction_within p)
        rw [hrun]
        simp only
        cases hcommit : server.driver db (p.before ++ [.beginTransaction] ++ p.within) .commit with
        | some e =>
          refine Or.inl ⟨e, _, rfl, throws_of_accepts hall (by simpa using hcommit) _, ?_⟩
          exact after_commit_failed hopen' hcommit
        | none =>
          refine Or.inr ⟨_, rfl, (accepts_append _ _).mpr ⟨hall, by simpa using hcommit⟩, ?_⟩
          rw [Server.after_concat, hcommit, Server.after_accepts hwithin, hafter]
          exact Store.commit_settled _
      · have hthrow := throws_of_accepts ((accepts_append _ _).mpr ⟨hbegun, by simpa using hwithin⟩)
          (by simpa using hc) [.rollback]
        rw [hrun]
        refine Or.inl ⟨e, _, rfl, by simpa using hthrow, ?_⟩
        rw [Server.after_concat]
        exact (server.after_open hopen fun b hb =>
          not_controlsTransaction_within p b (hpre.subset hb)).rollback
  · rw [hrun]
    refine Or.inl ⟨e, _, rfl, throws_of_accepts hbefore hc [], ?_⟩
    rw [List.nil_append]
    exact after_before_settled h hpre

end Plans

/-! ## The statements of an operation -/

/-- The statements a batch operation is for, with their parameters : one for each row, or
one for each chunk of keys that is deleted without arrays. -/
def BatchOperation.statements (conn : Connection) :
    BatchOperation → List (Text × List BoundValue)
  | .insertMany table entities _ =>
    entities.map fun e => (DbContext.insertSql conn table, rowValues table.insertColumns e)
  | .deleteMany table toBoundValue ids chunkSize =>
    match table.pkColumns with
    | [pk] =>
      if conn.arrayBatchInsert then
        ids.map fun id => (DbContext.deleteSql conn table pk, [toBoundValue id])
      else
        (chunks (conn.chunkSizeOr chunkSize) ids).map fun part =>
          (DbContext.deleteInSql conn table pk part.length, part.map toBoundValue)
    | _ => []
  | .updateMany table entities _ =>
    entities.map fun e =>
      (DbContext.updateSql conn table, rowValues (DbContext.updateOrder table) e)
  | .upsertMany table entities conflictColumns updateColumns =>
    match entities with
    | [] => []
    | front :: _ =>
      match DbContext.upsertSql conn table front conflictColumns updateColumns with
      | .ok sql => entities.map fun e => (sql, rowValues table.columns e)
      | .error _ => []

/-- The rows of an operation go by arrays. -/
def BatchOperation.ByArrays (conn : Connection) : BatchOperation → Prop
  | .insertMany _ _ _ => conn.arrayBatchInsert = true
  | .deleteMany _ _ _ _ => conn.arrayBatchInsert = true
  | .updateMany table _ _ => conn.arrayBatchInsert = true ∧ table.pkColumns ≠ []
  | .upsertMany _ _ _ _ => False

/-- An insert by arrays of rows without columns. -/
def BatchOperation.DropsRows (conn : Connection) : BatchOperation → Prop
  | .insertMany table entities _ =>
    conn.arrayBatchInsert = true ∧ entities ≠ [] ∧ table.insertColumns = []
  | _ => False

section Statements

variable {δ : Type} {server : Server δ} {db : Database δ} {conn : Connection} {d : δ}
  {α : Type}

/-- What has been executed when the transaction of a plan is committed. -/
def BatchPlan.result (server : Server δ) (p : BatchPlan) (db : Database δ) : δ :=
  ((p.begun server db).applyAll server p.within).store.seen

theorem seen_begun (h : db.store.Settled d) (p : BatchPlan) :
    (p.begun server db).store.seen = d := by
  rw [begun_store]
  exact h.seen_begin _

/-- What a plan leaves is what its statements leave one by one. -/
theorem result_arrays (h : db.store.Settled d) (sql : Text) {colCount : ℕ}
    {row : α → List BoundValue} (hrow : ∀ x, (row x).length = colCount) (hcol : colCount ≠ 0)
    (chunkSize : ℕ) (xs : List α) :
    (BatchPlan.arrays sql colCount row (chunks (conn.chunkSizeOr chunkSize) xs)).result server db =
      server.execArray sql (xs.map row) d := by
  rw [BatchPlan.result, seen_arrays sql hrow hcol, seen_begun h,
    flatten_chunks (chunkSizeOr_ne_zero conn chunkSize)]

theorem length_rowValues (columns : List (ColumnDef α)) (x : α) :
    (rowValues columns x).length = columns.length :=
  List.length_map _

theorem result_rows (h : db.store.Settled d) (sql : Text) (row : α → List BoundValue)
    (xs : List α) : (BatchPlan.rows sql row xs).result server db =
      server.execAll (xs.map fun x => (sql, row x)) d := by
  rw [BatchPlan.result, seen_rows row xs (begun_sql rfl db), seen_begun h]

theorem plan_on (op : BatchOperation) : op.plan (conn.on server db) = op.plan conn := by
  cases op <;> rfl

theorem statements_of_plan_none {op : BatchOperation} (hplan : op.plan conn = .ok none) :
    op.statements conn = [] := by
  cases op with
  | insertMany table entities chunkSize =>
    rcases plan_insertMany_cases hplan with ⟨rfl, -⟩ | ⟨-, -, hp⟩ | ⟨-, -, hp⟩
    · rfl
    · contradiction
    · contradiction
  | deleteMany table toBoundValue ids chunkSize =>
    rcases plan_deleteMany_cases hplan with ⟨rfl, -⟩ | ⟨-, pk, -, ⟨-, hp⟩ | ⟨-, hp⟩⟩
    · rcases hpk : table.pkColumns with _ | ⟨pk, _ | ⟨pk', rest⟩⟩ <;>
        simp [BatchOperation.statements, hpk, chunks_nil]
    · contradiction
    · contradiction
  | updateMany table entities chunkSize =>
    rcases plan_updateMany_cases hplan with ⟨rfl, -⟩ | ⟨-, -, -, hp⟩ | ⟨-, -, -, hp⟩
    · rfl
    · contradiction
    · contradiction
  | upsertMany table entities conflictColumns updateColumns =>
    rcases plan_upsertMany_cases hplan with ⟨rfl, -⟩ | ⟨front, rest, sql, -, -, hp⟩
    · rfl
    · contradiction

/-- A plan executes every statement of the operation once, in order. -/
theorem result_of_plan (h : db.store.Settled d) {op : BatchOperation} {p : BatchPlan}
    (hplan : op.plan conn = .ok (some p)) (hop : ¬ op.DropsRows conn)
    (htakes : op.ByArrays conn → ∀ st ∈ op.statements conn, server.TakesRow st.1 st.2) :
    p.result server db = server.execAll (op.statements conn) d := by
  cases op with
  | insertMany table entities chunkSize =>
    rcases plan_insertMany_cases hplan with ⟨-, hp⟩ | ⟨hne, harray, hp⟩ | ⟨-, -, hp⟩
    · contradiction
    · cases hp
      have hcol : table.insertColumns.length ≠ 0 := fun hnil =>
        hop ⟨harray, hne, List.length_eq_zero_iff.mp hnil⟩
      rw [result_arrays h _ (length_rowValues _) hcol chunkSize entities]
      exact Server.execArray_eq (htakes harray) d
    · cases hp
      exact result_rows h _ _ entities
  | deleteMany table toBoundValue ids chunkSize =>
    rcases plan_deleteMany_cases hplan with ⟨-, hp⟩ | ⟨-, pk, hpk, ⟨harray, hp⟩ | ⟨harray, hp⟩⟩
    · contradiction
    · cases hp
      have htakes' := htakes harray
      simp only [BatchOperation.statements, hpk, if_pos harray] at htakes' ⊢
      rw [result_arrays h _ (fun id => (rfl : [toBoundValue id].length = 1)) Nat.one_ne_zero
        chunkSize ids]
      exact Server.execArray_eq htakes' d
    · cases hp
      simp only [BatchOperation.statements, hpk, harray, Bool.false_eq_true, if_false]
      rw [BatchPlan.result, seen_statements, seen_begun h]
  | updateMany table entities chunkSize =>
    rcases plan_updateMany_cases hplan with ⟨-, hp⟩ | ⟨-, hpk, harray, hp⟩ | ⟨-, -, -, hp⟩
    · contradiction
    · cases hp
      have hcol : (DbContext.updateOrder table).length ≠ 0 := fun hnil =>
        hpk (List.append_eq_nil_iff.mp (List.length_eq_zero_iff.mp hnil)).2
      rw [result_arrays h _ (length_rowValues _) hcol chunkSize entities]
      exact Server.execArray_eq (htakes ⟨harray, hpk⟩) d
    · cases hp
      exact result_rows h _ _ entities
  | upsertMany table entities conflictColumns updateColumns =>
    rcases plan_upsertMany_cases hplan with ⟨-, hp⟩ | ⟨front, rest, sql, rfl, hsql, hp⟩
    · contradiction
    · cases hp
      simp only [BatchOperation.statements, hsql]
      exact result_rows h _ _ (front :: rest)

end Statements

/-! ## All or nothing -/

/-- A batch operation that returns has made no call that threw, and every one of its
statements has been executed once and is committed. One that throws leaves the database as
it was, and throws what the first call that failed threw, unless it made no calls and
rejected its arguments. -/
def AllOrNothing {δ : Type} (server : Server δ) (db : Database δ) (conn : Connection)
    (op : BatchOperation) : Prop :=
  match op.run (conn.on server db) [] with
  | (.ok _, log) => (server.driver db).Accepts [] log ∧
    (server.after db log).store.Settled (server.execAll (op.statements conn) db.store.durable)
  | (.error e, log) => (server.after db log).store.Settled db.store.durable ∧
    ((server.driver db).Throws [] log e ∨ log = [] ∧ op.plan conn = .error e)

/-- An operation whose rows are neither dropped nor left out is all or nothing. -/
theorem allOrNothing {δ : Type} (server : Server δ) {db : Database δ} (conn : Connection)
    {op : BatchOperation} (hdb : db.store.pending = none) (hop : ¬ op.DropsRows conn)
    (htakes : op.ByArrays conn → ∀ st ∈ op.statements conn, server.TakesRow st.1 st.2) :
    AllOrNothing server db conn op := by
  have h : db.store.Settled db.store.durable := by
    rw [Store.Settled, ← hdb]
  rw [AllOrNothing, BatchOperation.run_eq, plan_on]
  cases hplan : op.plan conn with
  | error e => exact ⟨h, Or.inr ⟨rfl, rfl⟩⟩
  | ok p? =>
    cases p? with
    | none =>
      refine ⟨trivial, ?_⟩
      rw [statements_of_plan_none hplan]
      exact h
    | some p =>
      simp only
      rcases run_plan_cases conn h p with
        ⟨e, log, hrun, hthrows, hsettled⟩ | ⟨log, hrun, haccepts, hsettled⟩
      · rw [hrun]
        exact ⟨hsettled, Or.inl hthrows⟩
      · rw [hrun, ← result_of_plan h hplan hop htakes]
        exact ⟨haccepts, hsettled⟩

/-! ## Rows that are not inserted -/

/-- A server that counts the statements it executes, and leaves one row out of arrays. -/
def leavingServer (kind : ServerKind) (left : Option (Text × List BoundValue)) : Server ℕ :=
  { countingServer kind with leavesOut := fun sql row _ => decide (left = some (sql, row)) }

section Leaving

variable {kind : ServerKind} {left : Option (Text × List BoundValue)} {conn : Connection}
  {op : BatchOperation}

/-- Only the calls of transactions are refused. -/
theorem driver_leavingServer {db : Database ℕ} {log : List DriverCall} {c : DriverCall}
    (hc : ¬ c.ControlsTransaction) : (leavingServer kind left).driver db log c = none := by
  cases c with
  | beginTransaction | commit | rollback => exact absurd trivial hc
  | _ => rfl

/-- The server that leaves out a row accepts everything. -/
theorem callAll_leavingServer {db : Database ℕ} {cs : List DriverCall}
    (hcs : ∀ c ∈ cs, ¬ c.ControlsTransaction) (log : List DriverCall) :
    callAll ((leavingServer kind left).driver db) cs log = (.ok (), log ++ cs) := by
  rcases callAll_cases ((leavingServer kind left).driver db) cs log with
    ⟨-, hrun⟩ | ⟨e, pre, c, hpre, -, hthrows, -⟩
  · exact hrun
  · rw [driver_leavingServer (hcs c (hpre.subset (by simp)))] at hthrows
    contradiction

variable (kind left) in
/-- The transaction is neither refused at its begin nor at its end. -/
theorem run_leavingServer (p : BatchPlan) (conn : Connection) :
    ∃ log, p.run (conn.on (leavingServer kind left) freshDatabase) [] = (.ok (), log) := by
  have hdriver : (conn.on (leavingServer kind left) freshDatabase).driver =
      (leavingServer kind left).driver freshDatabase := rfl
  have hbefore : ∀ c ∈ p.before, ¬ c.ControlsTransaction := by
    intro c hc
    obtain ⟨_ | sql, units⟩ := p
    · contradiction
    · rw [List.mem_singleton.mp hc]
      exact id
  have hsettled : ((leavingServer kind left).after freshDatabase p.before).store.Settled 0 :=
    after_before_settled (rfl : freshDatabase.store.Settled 0) (List.prefix_refl p.before)
  have hbegin : (leavingServer kind left).driver freshDatabase p.before .beginTransaction =
      none := by
    have hnone : ((leavingServer kind left).after freshDatabase p.before).store.pending = none := by
      rw [hsettled]
    rw [Server.driver, Server.answer, Server.refuses, hnone, if_neg (by simp)]
    rfl
  have hopen : ((leavingServer kind left).after freshDatabase
      (p.before ++ [.beginTransaction] ++ p.within)).store.Open 0 := by
    refine Server.after_open ?_ (not_controlsTransaction_within p)
    rw [Server.after_concat, hbegin]
    exact hsettled.begin _
  have hcommit : (leavingServer kind left).driver freshDatabase
      (p.before ++ [.beginTransaction] ++ p.within) .commit = none := by
    obtain ⟨pending, hpending⟩ := Option.isSome_iff_exists.mp hopen.pending_isSome
    rw [Server.driver, Server.answer, Server.refuses, hpending, if_neg (by simp)]
    rfl
  refine ⟨p.before ++ [.beginTransaction] ++ p.within ++ [.commit], ?_⟩
  rw [BatchPlan.run, Session.bind_eq, hdriver, callAll_leavingServer hbefore, List.nil_append]
  simp only
  rw [Connection.transaction_eq, hdriver, hbegin]
  simp only
  rw [callAll_leavingServer (not_controlsTransaction_within p)]
  simp only
  rw [hcommit]

/-- It counts the statements that are executed one by one. -/
theorem execAll_leavingServer (sts : List (Text × List BoundValue)) (n : ℕ) :
    (leavingServer kind left).execAll sts n = n + sts.length := by
  induction sts generalizing n with
  | nil => rfl
  | cons st sts ih =>
    rw [List.length_cons, Nat.add_comm sts.length, ← Nat.add_assoc]
    exact ih (n + 1)

/-- Where a plan executes fewer statements than the operation has, nothing fails. -/
theorem not_allOrNothing_of_lt {p : BatchPlan} (hplan : op.plan conn = .ok (some p))
    (hlt : p.result (leavingServer kind left) freshDatabase < (op.statements conn).length) :
    ¬ AllOrNothing (leavingServer kind left) freshDatabase conn op := by
  intro h
  rw [AllOrNothing, BatchOperation.run_eq, plan_on, hplan] at h
  simp only at h
  have hfresh : freshDatabase.store.Settled 0 := rfl
  obtain ⟨log, hok⟩ := run_leavingServer kind left p conn
  have hcases := @run_plan_cases ℕ (leavingServer kind left) freshDatabase 0 conn hfresh p
  rcases hcases with ⟨e, log', hrun, -⟩ | ⟨log', hrun, -, hsettled⟩
  · rw [hok] at hrun
    cases hrun
  · rw [hrun] at h
    have hstore := hsettled.symm.trans h.2
    rw [execAll_leavingServer] at hstore
    have hresult : p.result (leavingServer kind left) freshDatabase =
        0 + (op.statements conn).length := congrArg Store.durable hstore
    omega

/-- Arrays without columns have no effect. -/
theorem seen_arrays_zero {δ : Type} (server : Server δ) {α : Type} (sql : Text)
    (row : α → List BoundValue) (parts : List (List α)) (db : Database δ) :
    (db.applyAll server (BatchPlan.arrays sql 0 row parts).within).store.seen = db.store.seen := by
  induction parts generalizing db with
  | nil => rfl
  | cons part parts ih =>
    refine (ih _).trans ?_
    have hempty : server.execBatch sql (part.map row).flatten 0 (part.map row).length = id := by
      funext x
      rw [Server.execBatch, if_pos (Or.inr rfl)]
      rfl
    exact (Store.seen_write _ _).trans (congrFun hempty _)

/-- Rows are dropped where nothing fails. -/
theorem not_allOrNothing_of_dropsRows (kind : ServerKind) (hop : op.DropsRows conn) :
    ¬ AllOrNothing (leavingServer kind none) freshDatabase conn op := by
  cases op with
  | insertMany table entities chunkSize =>
    obtain ⟨harray, hne, hcol⟩ := hop
    have hplan : BatchOperation.plan conn (.insertMany table entities chunkSize) = .ok (some
        (.arrays (DbContext.insertSql conn table) 0 (rowValues table.insertColumns)
          (chunks (conn.chunkSizeOr chunkSize) entities))) := by
      simp [BatchOperation.plan, hne, harray, hcol]
    refine not_allOrNothing_of_lt hplan ?_
    have hresult : (BatchPlan.arrays (DbContext.insertSql conn table) 0
        (rowValues table.insertColumns) (chunks (conn.chunkSizeOr chunkSize) entities)).result
        (leavingServer kind none) freshDatabase = 0 := by
      rw [BatchPlan.result, seen_arrays_zero, seen_begun (rfl : freshDatabase.store.Settled 0)]
    rw [hresult, BatchOperation.statements, List.length_map]
    exact List.length_pos_iff.mpr hne
  | _ => exact hop.elim

variable (kind left) in
/-- An array has one statement less for each time that the row which is left out is in it. -/
theorem execArray_leavingServer_le (sql : Text) (rows : List (List BoundValue)) (n : ℕ) :
    (leavingServer kind left).execArray sql rows n ≤ n + rows.length := by
  induction rows generalizing n with
  | nil => exact le_rfl
  | cons row rows ih =>
    refine (ih _).trans ?_
    have hone : (leavingServer kind left).execArrayRow sql n row ≤ n + 1 := by
      rw [Server.execArrayRow]
      split
      · exact Nat.le_succ n
      · exact le_rfl
    rw [List.length_cons]
    omega

/-- It counts fewer of an array that holds the row. -/
theorem execArray_leavingServer_lt (sql : Text) {row : List BoundValue}
    {rows : List (List BoundValue)} (hrow : row ∈ rows) (n : ℕ) :
    (leavingServer .odbc (some (sql, row))).execArray sql rows n < n + rows.length := by
  induction rows generalizing n with
  | nil => contradiction
  | cons row' rows ih =>
    change (leavingServer .odbc (some (sql, row))).execArray sql rows
      ((leavingServer .odbc (some (sql, row))).execArrayRow sql n row') < _
    rw [List.length_cons]
    by_cases heq : row' = row
    · have hleft : (leavingServer .odbc (some (sql, row))).execArrayRow sql n row' = n :=
        if_pos ⟨rfl, decide_eq_true (by rw [heq])⟩
      have hrest := execArray_leavingServer_le .odbc (some (sql, row)) sql rows n
      rw [hleft]
      omega
    · have hnext : (leavingServer .odbc (some (sql, row))).execArrayRow sql n row' = n + 1 := by
        refine if_neg fun h => heq ?_
        have hpair := Option.some.inj (of_decide_eq_true h.2)
        exact (congrArg Prod.snd hpair).symm
      have hrest := ih ((List.mem_cons.mp hrow).resolve_left fun h => heq h.symm) (n + 1)
      rw [hnext]
      omega

/-- The plan of an operation whose rows go by arrays. -/
theorem exists_arrays (hop : op.ByArrays conn) (hdrops : ¬ op.DropsRows conn)
    (hne : op.statements conn ≠ []) :
    ∃ (α : Type) (sql : Text) (colCount : ℕ) (row : α → List BoundValue) (chunkSize : ℕ)
      (xs : List α), op.plan conn = .ok (some
        (.arrays sql colCount row (chunks (conn.chunkSizeOr chunkSize) xs))) ∧
        (∀ x, (row x).length = colCount) ∧ colCount ≠ 0 ∧
        op.statements conn = xs.map fun x => (sql, row x) := by
  cases op with
  | insertMany table entities chunkSize =>
    have hentities : entities ≠ [] := fun h => hne (by rw [h]; rfl)
    refine ⟨_, DbContext.insertSql conn table, table.insertColumns.length,
      rowValues table.insertColumns, chunkSize, entities, ?_, length_rowValues _, ?_, rfl⟩
    · simp [BatchOperation.plan, hentities, show conn.arrayBatchInsert = true from hop]
    · exact fun hnil => hdrops ⟨hop, hentities, List.length_eq_zero_iff.mp hnil⟩
  | deleteMany table toBoundValue ids chunkSize =>
    have harray : conn.arrayBatchInsert = true := hop
    rcases hpk : table.pkColumns with _ | ⟨pk, _ | ⟨pk', rest⟩⟩
    · exact absurd (by simp only [BatchOperation.statements, hpk]) hne
    · have hids : ids ≠ [] := by
        rintro rfl
        exact hne (by simp [BatchOperation.statements, hpk, harray])
      refine ⟨_, DbContext.deleteSql conn table pk, 1, fun id => [toBoundValue id], chunkSize, ids,
        ?_, fun _ => rfl, Nat.one_ne_zero, ?_⟩
      · simp [BatchOperation.plan, hids, hpk, harray]
      · simp only [BatchOperation.statements, hpk, if_pos harray]
    · exact absurd (by simp only [BatchOperation.statements, hpk]) hne
  | updateMany table entities chunkSize =>
    obtain ⟨harray, hpk⟩ := hop
    have hentities : entities ≠ [] := fun h => hne (by rw [h]; rfl)
    refine ⟨_, DbContext.updateSql conn table, (DbContext.updateOrder table).length,
      rowValues (DbContext.updateOrder table), chunkSize, entities, ?_, length_rowValues _, ?_,
      rfl⟩
    · simp [BatchOperation.plan, hentities, hpk, harray]
    · exact fun hnil => hpk (List.append_eq_nil_iff.mp (List.length_eq_zero_iff.mp hnil)).2
  | upsertMany table entities conflictColumns updateColumns => exact hop.elim

/-- A row that an ODBC driver leaves out of an array is missing where nothing fails. -/
theorem not_allOrNothing_of_left (hop : op.ByArrays conn) (hdrops : ¬ op.DropsRows conn)
    {st : Text × List BoundValue} (hst : st ∈ op.statements conn) :
    ¬ AllOrNothing (leavingServer .odbc (some st)) freshDatabase conn op := by
  obtain ⟨α, sql, colCount, row, chunkSize, xs, hplan, hrow, hcol, hstatements⟩ :=
    exists_arrays hop hdrops (List.ne_nil_of_mem hst)
  rw [hstatements] at hst
  obtain ⟨x, hx, rfl⟩ := List.mem_map.mp hst
  refine not_allOrNothing_of_lt hplan ?_
  have hlt := execArray_leavingServer_lt sql (List.mem_map_of_mem (f := row) hx) 0
  rw [result_arrays (rfl : freshDatabase.store.Settled 0) sql hrow hcol chunkSize xs,
    hstatements, List.length_map]
  rwa [Nat.zero_add, List.length_map] at hlt

end Leaving

/-- A table whose only column is its generated key. -/
def keysTable : TableDef BoundValue where
  name := "keys"
  columns := [{ name := "id", isPrimaryKey := true, isAutoIncrement := true, value := id }]

/-- Not every batch operation is all or nothing : an `insert_many` by arrays of rows that
have a generated key only returns without inserting any. -/
theorem not_forall_allOrNothing : ¬ ∀ (server : Server ℕ) (db : Database ℕ) (conn : Connection)
    (op : BatchOperation), db.store.pending = none → AllOrNothing server db conn op := by
  intro h
  have hdrops : BatchOperation.DropsRows postgresConnection
      (.insertMany keysTable [.null, .null] 0) := ⟨rfl, List.cons_ne_nil _ _, rfl⟩
  exact not_allOrNothing_of_dropsRows .postgres hdrops
    (h (leavingServer .postgres none) freshDatabase postgresConnection _ rfl)

/-- A batch operation is all or nothing on the servers of a kind, whatever else they do,
exactly when it does not drop its rows and, where they are reached by ODBC and the rows go by
arrays, none is a row that a driver may leave out. -/
theorem allOrNothing_iff (conn : Connection) (op : BatchOperation) (kind : ServerKind)
    (mayLeave : Text → List BoundValue → Prop) :
    (∀ (δ : Type) (server : Server δ) (db : Database δ), server.kind = kind →
      (∀ sql row x, server.leavesOut sql row x = true → mayLeave sql row) →
        db.store.pending = none → AllOrNothing server db conn op) ↔
      ¬ op.DropsRows conn ∧
        (kind = .odbc → op.ByArrays conn → ∀ st ∈ op.statements conn, ¬ mayLeave st.1 st.2) := by
  constructor
  · intro h
    have hdrops : ¬ op.DropsRows conn := fun hop =>
      not_allOrNothing_of_dropsRows kind hop
        (h ℕ (leavingServer kind none) freshDatabase rfl (fun _ _ _ hleft => by
          simp [leavingServer] at hleft) rfl)
    refine ⟨hdrops, ?_⟩
    rintro rfl harrays st hst hleave
    refine not_allOrNothing_of_left harrays hdrops hst
      (h ℕ (leavingServer .odbc (some st)) freshDatabase rfl ?_ rfl)
    intro sql row _ hleft
    obtain rfl := Option.some.inj (of_decide_eq_true hleft)
    exact hleave
  · rintro ⟨hdrops, hleave⟩ δ server db rfl hleft hdb
    refine allOrNothing server conn hdb hdrops fun harrays st hst hodbc x => ?_
    rw [Bool.eq_false_iff]
    exact fun hx => hleave hodbc harrays st hst (hleft _ _ x hx)

end CppLinq
