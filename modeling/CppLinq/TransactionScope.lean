import CppLinq.BatchPlan

/-!
# Operations in the scope of a transaction

A `Transaction` object that is destroyed without a commit should leave the database as it
was. It does so as long as no operation in its scope begins a transaction of its own
(`uncommitted_settled`) : the batch operations commit theirs, and servers have flat
transactions. SQLite refuses to begin another one, so there nothing can go wrong.
-/

namespace CppLinq

/-- The calls that begin or end a transaction. -/
def DriverCall.ControlsTransaction : DriverCall → Prop
  | .beginTransaction | .commit | .rollback => True
  | _ => False

/-! ## Calls in an open transaction -/

section Calls

variable {δ : Type} {server : Server δ} {db : Database δ} {d : δ}

/-- A call that controls no transaction leaves it open. -/
theorem Database.step_open (h : db.store.Open d) {c : DriverCall}
    (hc : ¬ c.ControlsTransaction) (log : List DriverCall) (threw : Bool) :
    (db.step server log threw c).store.Open d := by
  cases c with
  | prepare sql => cases threw <;> exact h
  | bind position value => cases threw <;> exact h
  | setTimeout seconds => exact h
  | setStopToken => exact h
  | reset => exact h
  | executeQuery => exact h.write _
  | executeNonQuery => exact h.write _
  | executeQueryDirect sql => exact h.write _
  | executeNonQueryDirect sql => exact h.write _
  | insertManyBatch sql flatParams colCount rowCount => exact h.write _
  | beginTransaction => exact absurd trivial hc
  | commit => exact absurd trivial hc
  | rollback => exact absurd trivial hc

/-- A transaction stays open under other calls, whichever of them throw. -/
theorem Server.after_open {log : List DriverCall} (h : (server.after db log).store.Open d)
    {cs : List DriverCall} (hcs : ∀ c ∈ cs, ¬ c.ControlsTransaction) :
    (server.after db (log ++ cs)).store.Open d := by
  induction cs using List.reverseRecOn with
  | nil => rwa [List.append_nil]
  | append_singleton cs c ih =>
    have hinit := ih fun c hc => hcs c (List.mem_append_left _ hc)
    rw [← List.append_assoc, Server.after_concat]
    exact Database.step_open hinit (hcs c (by simp)) _ _

end Calls

/-! ## Computations that leave transactions alone -/

section KeepsTransaction

variable {α β : Type} {driver : Driver}

/-- The computation neither begins nor ends a transaction. -/
def Session.KeepsTransaction (m : Session α) : Prop :=
  ∀ log, ∃ cs, (m log).2 = log ++ cs ∧ ∀ c ∈ cs, ¬ c.ControlsTransaction

theorem keepsTransaction_pure (a : α) : (pure a : Session α).KeepsTransaction :=
  fun log => ⟨[], (List.append_nil log).symm, by simp⟩

theorem keepsTransaction_throw (e : Exn) : (throw e : Session α).KeepsTransaction :=
  fun log => ⟨[], (List.append_nil log).symm, by simp⟩

theorem keepsTransaction_get : (get : Session (List DriverCall)).KeepsTransaction :=
  fun log => ⟨[], (List.append_nil log).symm, by simp⟩

theorem keepsTransaction_call {c : DriverCall} (hc : ¬ c.ControlsTransaction) :
    (call driver c).KeepsTransaction :=
  fun log => ⟨[c], by rw [call_eq], by simpa using hc⟩

/-- Calls that control no transaction keep it. -/
theorem keepsTransaction_callAll {cs : List DriverCall}
    (hcs : ∀ c ∈ cs, ¬ c.ControlsTransaction) : (callAll driver cs).KeepsTransaction := by
  intro log
  obtain ⟨ds, hds, hlog⟩ := callAll_log driver cs log
  exact ⟨ds, hlog, fun c hc => hcs c (hds.subset hc)⟩

/-- Sessions that keep the transaction may follow each other. -/
theorem Session.KeepsTransaction.bind {m : Session α} {f : α → Session β}
    (hm : m.KeepsTransaction) (hf : ∀ a, (f a).KeepsTransaction) :
    (m >>= f).KeepsTransaction := by
  intro log
  obtain ⟨cs, hlog, hcs⟩ := hm log
  rw [Session.bind_eq]
  cases hrun : m log with
  | mk r log' =>
    rw [hrun] at hlog
    change log' = log ++ cs at hlog
    cases r with
    | error e => exact ⟨cs, hlog, hcs⟩
    | ok a =>
      obtain ⟨ds, hlog', hds⟩ := hf a log'
      refine ⟨cs ++ ds, ?_, ?_⟩
      · exact hlog'.trans (by rw [hlog, List.append_assoc])
      · intro c hc
        rcases List.mem_append.mp hc with hc | hc
        · exact hcs c hc
        · exact hds c hc

theorem Session.KeepsTransaction.discard {m : Session α} (hm : m.KeepsTransaction) :
    m.discard.KeepsTransaction :=
  hm.bind fun _ => keepsTransaction_pure ()

theorem keepsTransaction_bindCalls (k : ℕ) (vs : List BoundValue) :
    (callAll driver (bindCalls k vs)).KeepsTransaction := by
  refine keepsTransaction_callAll fun c hc => ?_
  obtain ⟨i, v, -, rfl⟩ := mem_bindCalls.mp hc
  exact id

variable (conn : Connection)

theorem keepsTransaction_executeNonQuery : conn.executeNonQuery.KeepsTransaction :=
  (keepsTransaction_call id).bind fun _ => keepsTransaction_get.bind fun _ =>
    keepsTransaction_pure _

theorem keepsTransaction_readKey : (DbContext.readKey conn).KeepsTransaction :=
  (keepsTransaction_call id).bind fun _ => keepsTransaction_get.bind fun _ =>
    keepsTransaction_pure _

/-- Each operation on one row keeps the transaction. -/
theorem keepsTransaction_insert {E : Type} (table : TableDef E) (entity : E) :
    (DbContext.insert conn table entity).KeepsTransaction := by
  refine (keepsTransaction_call id).bind fun _ => (keepsTransaction_bindCalls _ _).bind fun _ => ?_
  split
  · exact (keepsTransaction_executeNonQuery conn).bind fun _ => keepsTransaction_pure _
  · split
    · exact keepsTransaction_readKey conn
    · refine (keepsTransaction_executeNonQuery conn).bind fun _ => ?_
      simp only
      split
      · exact (keepsTransaction_call id).bind fun _ => keepsTransaction_readKey conn
      · exact keepsTransaction_pure _

theorem keepsTransaction_upsert {E : Type} (table : TableDef E) (entity : E)
    (conflictColumns updateColumns : List String) :
    (DbContext.upsert conn table entity conflictColumns updateColumns).KeepsTransaction := by
  rw [DbContext.upsert]
  cases generateUpsert conn.dialect table.name table.columnNames
    (rowValues table.columns entity) (table.conflictColumns conflictColumns)
    (table.updateColumns (table.conflictColumns conflictColumns) updateColumns) with
  | error e => exact keepsTransaction_throw e
  | ok r =>
    exact (keepsTransaction_call id).bind fun _ => (keepsTransaction_bindCalls _ _).bind fun _ =>
      keepsTransaction_executeNonQuery conn

/-- No terminal controls a transaction. -/
theorem Terminal.not_controlsTransaction {t : Terminal} {r : GeneratedSql} {c : DriverCall}
    (hc : c ∈ t.calls r) : ¬ c.ControlsTransaction := by
  have hdirect : ¬ (t.executeDirect r.sql).ControlsTransaction := by
    unfold Terminal.executeDirect
    split <;> exact id
  have hprepared : ¬ t.executePrepared.ControlsTransaction := by
    unfold Terminal.executePrepared
    split <;> exact id
  unfold Terminal.calls at hc
  split at hc
  · rw [List.mem_singleton.mp hc]
    exact hdirect
  · simp only [Terminal.optionCalls, List.mem_cons, List.mem_append, List.mem_map,
      mem_bindCalls, List.not_mem_nil, or_false] at hc
    rcases hc with rfl | (⟨s, -, rfl⟩ | hc) | ⟨i, v, -, rfl⟩ | rfl
    · exact id
    · exact id
    · split at hc
      · rw [List.mem_singleton.mp hc]
        exact id
      · contradiction
    · exact id
    · exact hprepared

theorem keepsTransaction_terminal (d : Dialect) (t : Terminal) :
    (t.run driver d).KeepsTransaction := by
  cases hr : t.generated d with
  | error e =>
    exact fun log => ⟨[], by rw [Terminal.run_of_error hr, List.append_nil], by simp⟩
  | ok r =>
    rw [Terminal.run_eq hr]
    exact keepsTransaction_callAll fun c hc => Terminal.not_controlsTransaction hc

end KeepsTransaction

/-! ## Batch operations in an open transaction -/

/-- The operation gets to begin a transaction of its own, after the given calls. -/
def BatchOperation.OpensTransaction (conn : Connection) (log : List DriverCall) :
    BatchOperation → Prop
  | .insertMany table entities _ => entities ≠ [] ∧ (conn.arrayBatchInsert = true ∨
      conn.driver log (.prepare (DbContext.insertSql conn table)) = none)
  | .deleteMany table _ ids _ => ids ≠ [] ∧ table.pkColumns.length = 1
  | .updateMany table entities _ => entities ≠ [] ∧ table.pkColumns ≠ [] ∧
      (conn.arrayBatchInsert = true ∨
        conn.driver log (.prepare (DbContext.updateSql conn table)) = none)
  | .upsertMany table entities conflictColumns updateColumns => ∃ front sql,
      entities.head? = some front ∧
      DbContext.upsertSql conn table front conflictColumns updateColumns = .ok sql ∧
      conn.driver log (.prepare sql) = none

/-- An operation begins a transaction of its own. -/
def Operation.OpensTransaction (conn : Connection) (log : List DriverCall) : Operation → Prop
  | .batch op => op.OpensTransaction conn log
  | _ => False

section OpensTransaction

variable {conn : Connection} {log : List DriverCall}

/-- The calls before the transaction throw, or the operation opens it. -/
theorem opensTransaction_of_plan {op : BatchOperation} {p : BatchPlan}
    (hplan : op.plan conn = .ok (some p)) (hbefore : conn.driver.Accepts log p.before) :
    op.OpensTransaction conn log := by
  cases op with
  | insertMany table entities chunkSize =>
    rcases plan_insertMany_cases hplan with ⟨-, hp⟩ | ⟨hne, harray, -⟩ | ⟨hne, -, hp⟩
    · contradiction
    · exact ⟨hne, Or.inl harray⟩
    · cases hp
      exact ⟨hne, Or.inr hbefore.1⟩
  | deleteMany table toBoundValue ids chunkSize =>
    rcases plan_deleteMany_cases hplan with ⟨-, hp⟩ | ⟨hne, pk, hpk, -⟩
    · contradiction
    · exact ⟨hne, congrArg List.length hpk⟩
  | updateMany table entities chunkSize =>
    rcases plan_updateMany_cases hplan with
      ⟨-, hp⟩ | ⟨hne, hpk, harray, -⟩ | ⟨hne, hpk, -, hp⟩
    · contradiction
    · exact ⟨hne, hpk, Or.inl harray⟩
    · cases hp
      exact ⟨hne, hpk, Or.inr hbefore.1⟩
  | upsertMany table entities conflictColumns updateColumns =>
    rcases plan_upsertMany_cases hplan with ⟨-, hp⟩ | ⟨front, rest, sql, rfl, hsql, hp⟩
    · contradiction
    · cases hp
      exact ⟨front, sql, rfl, hsql, hbefore.1⟩

theorem not_controlsTransaction_before (p : BatchPlan) :
    ∀ c ∈ p.before, ¬ c.ControlsTransaction := by
  intro c hc
  obtain ⟨sql, -, rfl⟩ := List.mem_map.mp hc
  exact id

end OpensTransaction

/-! ## The scope of a transaction that is not committed -/

/-- The connection with the driver of a server. -/
def Connection.on {δ : Type} (conn : Connection) (server : Server δ) (db : Database δ) :
    Connection :=
  { conn with driver := server.driver db }

/-- Run operations one after another, whether or not they throw. -/
def runEach (conn : Connection) : List Operation → Session Unit
  | [] => return
  | op :: ops => do
    tryCatch (op.run conn) fun _ => return
    runEach conn ops

/-- The scope of a `Transaction` that is not committed. -/
def uncommitted (conn : Connection) (ops : List Operation) : Session Unit := do
  call conn.driver .beginTransaction
  runEach conn ops
  tryCatch (call conn.driver .rollback) fun _ => return

/-- No step of a run begins a transaction of its own, except on SQLite, where the attempt
is refused. -/
def StepsKeepTransaction (kind : ServerKind) (conn : Connection) :
    List Operation → List DriverCall → Prop
  | [], _ => True
  | op :: ops, log => (kind = .sqlite ∨ ¬ op.OpensTransaction conn log) ∧
      StepsKeepTransaction kind conn ops (op.run conn log).2

section Uncommitted

variable {δ : Type} {server : Server δ} {db : Database δ} {d : δ} {conn : Connection}

/-- SQLite refuses to begin a transaction while one is open. -/
theorem begin_refused {log : List DriverCall} (hkind : server.kind = .sqlite)
    (h : (server.after db log).store.Open d) :
    ∃ e, server.driver db log .beginTransaction = some e := by
  refine ⟨.dbException
    "SQLite execute failed: cannot start a transaction within a transaction", ?_⟩
  rw [Server.driver, Server.answer, Server.refuses, if_pos ⟨hkind, h.pending_isSome⟩]
  rfl

/-- A batch operation in an open transaction that it does not get to replace. -/
theorem after_batch_open {op : BatchOperation} {log : List DriverCall}
    (h : (server.after db log).store.Open d)
    (hop : server.kind = .sqlite ∨ ¬ op.OpensTransaction (conn.on server db) log) :
    (server.after db (op.run (conn.on server db) log).2).store.Open d := by
  rw [BatchOperation.run_eq]
  cases hplan : op.plan (conn.on server db) with
  | error e => exact h
  | ok p? =>
    cases p? with
    | none => exact h
    | some p =>
      change (server.after db ((p.run (conn.on server db)) log).2).store.Open d
      have hbefore := not_controlsTransaction_before p
      rw [BatchPlan.run, Session.bind_eq]
      rcases callAll_cases (conn.on server db).driver p.before log with
        ⟨haccepts, hrun⟩ | ⟨e, pre, c, hpre, -, -, hrun⟩
      · have hsqlite := hop.resolve_right fun hno => hno (opensTransaction_of_plan hplan haccepts)
        have hopen := server.after_open h hbefore
        obtain ⟨e, he⟩ := begin_refused hsqlite hopen
        have hbegin : (conn.on server db).driver (log ++ p.before) .beginTransaction = some e := he
        rw [hrun]
        simp only
        rw [Connection.transaction_eq, hbegin]
        simp only
        rw [Server.after_concat, he]
        exact hopen
      · rw [hrun]
        exact server.after_open h fun b hb => hbefore b (hpre.subset hb)

theorem after_operation_open {op : Operation} {log : List DriverCall}
    (h : (server.after db log).store.Open d)
    (hop : server.kind = .sqlite ∨ ¬ op.OpensTransaction (conn.on server db) log) :
    (server.after db (op.run (conn.on server db) log).2).store.Open d := by
  have hkeeps : ∀ {m : Session Unit}, m.KeepsTransaction →
      (server.after db (m log).2).store.Open d := by
    intro m hm
    obtain ⟨cs, hlog, hcs⟩ := hm log
    rw [hlog]
    exact server.after_open h hcs
  cases op with
  | insert table entity => exact hkeeps (keepsTransaction_insert _ table entity).discard
  | update q assignments => exact hkeeps (keepsTransaction_terminal _ _)
  | remove q => exact hkeeps (keepsTransaction_terminal _ _)
  | upsert table entity conflictColumns updateColumns =>
    exact hkeeps (keepsTransaction_upsert _ table entity conflictColumns updateColumns).discard
  | batch op => exact after_batch_open h hop

theorem after_runEach_open {ops : List Operation} {log : List DriverCall}
    (h : (server.after db log).store.Open d)
    (hops : StepsKeepTransaction server.kind (conn.on server db) ops log) :
    (runEach (conn.on server db) ops log).1 = .ok () ∧
      (server.after db (runEach (conn.on server db) ops log).2).store.Open d := by
  induction ops generalizing log with
  | nil => exact ⟨rfl, h⟩
  | cons op ops ih =>
    obtain ⟨hop, hops⟩ := hops
    have hopen := after_operation_open h hop
    rw [runEach, Session.bind_eq, Session.tryCatch_eq]
    cases hrun : op.run (conn.on server db) log with
    | mk r log' =>
      rw [hrun] at hopen hops
      cases r with
      | error e => exact ih hopen hops
      | ok _ => exact ih hopen hops

/-- A transaction that is not committed leaves the database as it was when it began, if no
step in its scope begins another transaction. -/
theorem uncommitted_settled (server : Server δ) (db : Database δ) (conn : Connection)
    (ops : List Operation) (hdb : db.store.Settled d)
    (hbegin : server.driver db [] .beginTransaction = none)
    (hops : StepsKeepTransaction server.kind (conn.on server db) ops [.beginTransaction]) :
    (server.after db (uncommitted (conn.on server db) ops []).2).store.Settled d := by
  have hopen : (server.after db [.beginTransaction]).store.Open d := by
    rw [← List.nil_append [DriverCall.beginTransaction], Server.after_concat, hbegin]
    exact hdb.begin _
  obtain ⟨hok, hopen⟩ := after_runEach_open hopen hops
  have hbegin' : (conn.on server db).driver [] .beginTransaction = none := hbegin
  rw [uncommitted, Session.bind_eq, call_eq, hbegin', List.nil_append]
  simp only
  rw [Session.bind_eq]
  cases hrun : runEach (conn.on server db) ops [.beginTransaction] with
  | mk r log =>
    rw [hrun] at hok hopen
    change r = .ok () at hok
    subst hok
    simp only
    rw [Session.tryCatch_eq, call_eq]
    have hafter : (server.after db (log ++ [.rollback])).store.Settled d := by
      rw [Server.after_concat]
      exact hopen.rollback
    cases (conn.on server db).driver log .rollback <;> exact hafter

end Uncommitted

/-- A server that counts the statements it executes. -/
def countingServer (kind : ServerKind) : Server ℕ where
  kind := kind
  exec _ _ n := n + 1
  fails _ _ := none
  spoils _ _ n := n

/-- A database before any statement. -/
def freshDatabase : Database ℕ :=
  ⟨⟨0, none⟩, [], []⟩

/-- A connection to PostgreSQL. -/
def postgresConnection : Connection where
  dialect := .postgres
  arrayBatchInsert := true
  defaultBatchChunkSize := 1000
  driver := .accepting
  affected _ := 0
  firstInt64 _ := none

/-- A table of numbers. -/
def numbersTable : TableDef BoundValue where
  name := "numbers"
  columns := [{ name := "n", value := id }]

/-- An insert and a delete in the scope. -/
theorem uncommitted_insert_remove : ((countingServer .postgres).after freshDatabase
    (uncommitted (postgresConnection.on (countingServer .postgres) freshDatabase)
      [.insert numbersTable (.int64 1), .remove { tableName := "numbers", columns := ["n"] }]
      []).2).store.Settled 0 :=
  uncommitted_settled (countingServer .postgres) freshDatabase postgresConnection _ rfl rfl
    ⟨Or.inr id, Or.inr id, trivial⟩

/-- A transaction that is not committed does not always leave the database as it was :
an `insert_many` in its scope commits it. -/
theorem not_forall_uncommitted_settled : ¬ ∀ (server : Server ℕ) (db : Database ℕ)
    (conn : Connection) (ops : List Operation) (d : ℕ), db.store.Settled d →
      server.driver db [] .beginTransaction = none →
      (server.after db (uncommitted (conn.on server db) ops []).2).store.durable = d := by
  intro h
  have hdurable := h (countingServer .postgres) freshDatabase postgresConnection
    [.batch (.insertMany numbersTable [.int64 1, .int64 2] 0)] 0 rfl rfl
  exact absurd hdurable (by decide)

end CppLinq
