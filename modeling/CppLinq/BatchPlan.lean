import CppLinq.DbContext

/-!
# What a batch operation does

Every batch operation that has anything to do prepares a statement or none, begins its
transaction, makes the calls for one chunk or row after another, and commits
(`BatchPlan`, `BatchOperation.run_eq`).
-/

namespace CppLinq

/-! ## Calls that throw -/

/-- No call throws. -/
def Driver.Accepts (driver : Driver) : List DriverCall → List DriverCall → Prop
  | _, [] => True
  | log, c :: cs => driver log c = none ∧ driver.Accepts (log ++ [c]) cs

/-- The first call that throws throws `e`. -/
def Driver.Throws (driver : Driver) (log cs : List DriverCall) (e : Exn) : Prop :=
  ∃ pre c post, cs = pre ++ c :: post ∧ driver.Accepts log pre ∧ driver (log ++ pre) c = some e

section Calls

variable {driver : Driver} {log : List DriverCall}

/-- A driver accepts calls if it accepts the first and then the others. -/
theorem accepts_append (cs ds : List DriverCall) :
    driver.Accepts log (cs ++ ds) ↔ driver.Accepts log cs ∧ driver.Accepts (log ++ cs) ds := by
  induction cs generalizing log with
  | nil => simp [Driver.Accepts]
  | cons c cs ih => simp [Driver.Accepts, ih, and_assoc]

@[simp] theorem accepts_singleton (c : DriverCall) :
    driver.Accepts log [c] ↔ driver log c = none := by
  simp [Driver.Accepts]

/-- A driver that refuses one call throws there. -/
theorem throws_of_accepts {cs : List DriverCall} {c : DriverCall} {e : Exn}
    (hcs : driver.Accepts log cs) (hc : driver (log ++ cs) c = some e) (ds : List DriverCall) :
    driver.Throws log (cs ++ c :: ds) e :=
  ⟨cs, c, ds, rfl, hcs, hc⟩

/-- Calls are made up to the first that throws. -/
theorem callAll_cases (driver : Driver) (cs log : List DriverCall) :
    (driver.Accepts log cs ∧ callAll driver cs log = (.ok (), log ++ cs)) ∨
      ∃ e pre c, pre ++ [c] <+: cs ∧ driver.Accepts log pre ∧ driver (log ++ pre) c = some e ∧
        callAll driver cs log = (.error e, log ++ (pre ++ [c])) := by
  induction cs generalizing log with
  | nil => exact Or.inl ⟨trivial, by rw [List.append_nil]; rfl⟩
  | cons c cs ih =>
    cases hc : driver log c with
    | some e =>
      have hrun : callAll driver (c :: cs) log = (.error e, log ++ [c]) := by
        rw [callAll, Session.bind_eq, call_eq, hc]
      exact Or.inr ⟨e, [], c, by simp, trivial, by simpa using hc, by rw [hrun, List.nil_append]⟩
    | none =>
      have hcall : callAll driver (c :: cs) log = callAll driver cs (log ++ [c]) := by
        rw [callAll, Session.bind_eq, call_eq, hc]
      rw [hcall]
      rcases ih (log ++ [c]) with ⟨hcs, hrun⟩ | ⟨e, pre, b, hpre, haccepts, hb, hrun⟩
      · exact Or.inl ⟨⟨hc, hcs⟩, by simpa using hrun⟩
      · exact Or.inr ⟨e, c :: pre, b, by simpa using hpre, ⟨hc, haccepts⟩, by simpa using hb,
          by simpa using hrun⟩

theorem Session.tryCatch_eq {α : Type} (m : Session α) (h : Exn → Session α)
    (log : List DriverCall) : (tryCatch m h : Session α) log = match m log with
      | (.ok a, log') => (.ok a, log')
      | (.error e, log') => h e log' := by
  simp only [tryCatch, tryCatchThe, MonadExceptOf.tryCatch, ExceptT.tryCatch, ExceptT.mk, bind,
    StateT.bind]
  cases m log with
  | mk r log' => cases r <;> rfl

/-- How the scope of a transaction ends. -/
theorem Connection.transaction_eq {α : Type} (conn : Connection) (body : Session α)
    (log : List DriverCall) : conn.transaction body log =
      match conn.driver log .beginTransaction with
      | some e => (.error e, log ++ [.beginTransaction])
      | none => match body (log ++ [.beginTransaction]) with
        | (.error e, log') => (.error e, log' ++ [.rollback])
        | (.ok a, log') => match conn.driver log' .commit with
          | some e => (.error e, log' ++ [.commit, .rollback])
          | none => (.ok a, log' ++ [.commit]) := by
  have hrollback : ∀ (e : Exn) (log' : List DriverCall),
      (do tryCatch (call conn.driver .rollback) fun _ => return; throw e : Session α) log' =
        (.error e, log' ++ [.rollback]) := by
    intro e log'
    rw [Session.bind_eq, Session.tryCatch_eq, call_eq]
    cases conn.driver log' .rollback <;> rfl
  rw [Connection.transaction, Session.bind_eq, call_eq]
  cases conn.driver log .beginTransaction with
  | some e => rfl
  | none =>
    simp only
    rw [Session.tryCatch_eq, Session.bind_eq]
    cases hbody : body (log ++ [.beginTransaction]) with
    | mk r log' =>
      cases r with
      | error e => exact hrollback e log'
      | ok a =>
        simp only
        rw [Session.bind_eq, call_eq]
        cases conn.driver log' .commit with
        | some e => exact (hrollback e (log' ++ [.commit])).trans (by rw [List.append_assoc])
        | none => rfl

end Calls

/-! ## Computations as lists of calls -/

section Discard

variable {α β : Type}

theorem discard_bind (m : Session α) (f : α → Session β) :
    (m >>= f).discard = m >>= fun a => (f a).discard := by
  simp [Session.discard]

@[simp] theorem discard_pure (a : α) : (pure a : Session α).discard = pure () := by
  simp [Session.discard]

@[simp] theorem discard_throw (e : Exn) : (throw e : Session α).discard = throw e := by
  simp [Session.discard]

@[simp] theorem discard_unit (m : Session Unit) : m.discard = m := by
  simp [Session.discard]

theorem bind_discard (m : Session α) (n : Session β) :
    (m.discard >>= fun _ => n) = m >>= fun _ => n := by
  simp [Session.discard]

/-- What a computation does without its result. -/
theorem discard_eq (m : Session α) (log : List DriverCall) :
    m.discard log = match m log with
      | (.ok _, log') => (.ok (), log')
      | (.error e, log') => (.error e, log') := by
  rw [Session.discard, Session.bind_eq]
  rfl

/-- The result plays no part in a transaction. -/
theorem discard_transaction (conn : Connection) (body : Session α) :
    (conn.transaction body).discard = conn.transaction body.discard := by
  funext log
  rw [discard_eq, conn.transaction_eq, conn.transaction_eq, discard_eq]
  cases conn.driver log .beginTransaction with
  | some e => rfl
  | none =>
    simp only
    cases body (log ++ [.beginTransaction]) with
    | mk r log' =>
      cases r with
      | error e => rfl
      | ok a =>
        simp only
        cases conn.driver log' .commit <;> rfl

/-- A sum makes the calls for one element after another. -/
theorem discard_sumOver {driver : Driver} {f : α → Session ℕ} {g : α → List DriverCall}
    (h : ∀ x, (f x).discard = callAll driver (g x)) (xs : List α) :
    (sumOver f xs).discard = callAll driver (xs.flatMap g) := by
  induction xs with
  | nil => rw [sumOver, discard_pure]; rfl
  | cons x xs ih =>
    rw [sumOver, List.flatMap_cons, callAll_append, ← h, ← ih, bind_discard, discard_bind]
    simp [Session.discard]

variable (conn : Connection)

/-- A call whose answer is read off the calls so far. -/
theorem discard_call (driver : Driver) (c : DriverCall) (f : List DriverCall → α) :
    (do call driver c; return f (← get) : Session α).discard = call driver c := by
  funext log
  rw [discard_eq, Session.bind_eq, call_eq]
  cases driver log c <;> rfl

theorem discard_executeNonQuery :
    conn.executeNonQuery.discard = call conn.driver .executeNonQuery :=
  discard_call conn.driver .executeNonQuery conn.affected

theorem discard_insertManyBatch (sql : Text) (flatParams : List BoundValue)
    (colCount rowCount : ℕ) : (conn.insertManyBatch sql flatParams colCount rowCount).discard =
      call conn.driver (.insertManyBatch sql flatParams colCount rowCount) :=
  discard_call conn.driver (.insertManyBatch sql flatParams colCount rowCount) conn.affected

theorem discard_executeWith (params : List BoundValue) : (conn.executeWith params).discard =
    callAll conn.driver (bindCalls 0 params ++ [.executeNonQuery]) := by
  rw [Connection.executeWith, discard_bind, discard_executeNonQuery, callAll_append,
    callAll_singleton]

theorem discard_executeAgain (params : List BoundValue) : (conn.executeAgain params).discard =
    callAll conn.driver (.reset :: (bindCalls 0 params ++ [.executeNonQuery])) := by
  rw [Connection.executeAgain, discard_bind, discard_executeWith, callAll]

end Discard

/-! ## Chunks -/

/-- The chunks of a list make up the list. -/
theorem flatten_chunks {α : Type} {size : ℕ} (hsize : size ≠ 0) (xs : List α) :
    (chunks size xs).flatten = xs := by
  have hdiv := Nat.div_add_mod (xs.length + size - 1) size
  have hmod := Nat.mod_lt (xs.length + size - 1) (Nat.pos_of_ne_zero hsize)
  rw [chunks, flatten_parts, List.take_of_length_le]
  rw [Nat.mul_comm]
  omega

/-- Chunks hold nothing else. -/
theorem mem_of_mem_chunks {α : Type} {size : ℕ} (hsize : size ≠ 0) {xs part : List α} {x : α}
    (hpart : part ∈ chunks size xs) (hx : x ∈ part) : x ∈ xs := by
  rw [← flatten_chunks hsize xs]
  exact List.mem_flatten.mpr ⟨part, hpart, hx⟩

/-- No chunk is longer than the list. -/
theorem length_le_of_mem_chunks {α : Type} {size : ℕ} {xs part : List α}
    (hpart : part ∈ chunks size xs) : part.length ≤ xs.length := by
  obtain ⟨i, -, rfl⟩ := List.mem_map.mp hpart
  rw [List.length_take, List.length_drop]
  omega

/-- No chunk is empty. -/
theorem ne_nil_of_mem_chunks {α : Type} {size : ℕ} (hsize : 0 < size) {xs part : List α}
    (hpart : part ∈ chunks size xs) : part ≠ [] := by
  obtain ⟨i, hi, rfl⟩ := List.mem_map.mp hpart
  have hlt : i < (xs.length + size - 1) / size := List.mem_range.mp hi
  have hmul : (i + 1) * size ≤ xs.length + size - 1 :=
    (Nat.le_div_iff_mul_le hsize).mp (Nat.succ_le_of_lt hlt)
  rw [Nat.succ_mul] at hmul
  rw [← List.length_pos_iff, List.length_take, List.length_drop]
  omega

theorem chunks_nil {α : Type} (size : ℕ) : chunks size ([] : List α) = [] := by
  have hcount : ((0 : ℕ) + size - 1) / size = 0 := by
    rcases Nat.eq_zero_or_pos size with rfl | hsize
    · exact Nat.div_zero _
    · exact Nat.div_eq_of_lt (by omega)
  rw [chunks, List.length_nil, hcount]
  rfl

theorem chunkSizeOr_ne_zero (conn : Connection) (chunkSize : ℕ) :
    conn.chunkSizeOr chunkSize ≠ 0 := by
  unfold Connection.chunkSizeOr
  split
  · split <;> omega
  · omega

/-! ## Plans -/

/-- What a batch operation does for one chunk or one row. -/
inductive BatchUnit
  /-- Execute a statement for rows bound to arrays. -/
  | array (sql : Text) (colCount : ℕ) (rows : List (List BoundValue))
  /-- Execute the statement prepared before the transaction. -/
  | again (params : List BoundValue)
  /-- Prepare a statement and execute it. -/
  | own (sql : Text) (params : List BoundValue)

/-- The calls that a unit makes. -/
def BatchUnit.calls : BatchUnit → List DriverCall
  | .array sql colCount rows => [.insertManyBatch sql rows.flatten colCount rows.length]
  | .again params => .reset :: (bindCalls 0 params ++ [.executeNonQuery])
  | .own sql params => .prepare sql :: (bindCalls 0 params ++ [.executeNonQuery])

/-- What a batch operation does, before it does it. -/
structure BatchPlan where
  /-- The statement prepared before the transaction, if there is one. -/
  prepared : Option Text
  units : List BatchUnit

namespace BatchPlan

/-- The calls before the transaction. -/
def before (p : BatchPlan) : List DriverCall :=
  p.prepared.toList.map .prepare

/-- The calls in the transaction. -/
def within (p : BatchPlan) : List DriverCall :=
  p.units.flatMap BatchUnit.calls

/-- A batch operation does what it planned. -/
def run (conn : Connection) (p : BatchPlan) : Session Unit := do
  callAll conn.driver p.before
  conn.transaction (callAll conn.driver p.within)

/-- One array for each chunk. -/
def arrays {α : Type} (sql : Text) (colCount : ℕ) (row : α → List BoundValue)
    (parts : List (List α)) : BatchPlan :=
  ⟨none, parts.map fun part => .array sql colCount (part.map row)⟩

/-- A statement executed for each row. -/
def rows {α : Type} (sql : Text) (row : α → List BoundValue) (xs : List α) : BatchPlan :=
  ⟨some sql, xs.map fun x => .again (row x)⟩

/-- A statement for each chunk. -/
def statements {α : Type} (sql : ℕ → Text) (value : α → BoundValue) (parts : List (List α)) :
    BatchPlan :=
  ⟨none, parts.map fun part => .own (sql part.length) (part.map value)⟩

end BatchPlan

/-- The plan of a batch operation, if there is anything to do, or the exception it throws
on its arguments. -/
def BatchOperation.plan (conn : Connection) : BatchOperation → Except Exn (Option BatchPlan)
  | .insertMany table entities chunkSize =>
    let sql := DbContext.insertSql conn table
    let cols := table.insertColumns
    if entities.isEmpty then .ok none
    else if conn.arrayBatchInsert then
      .ok (some (.arrays sql cols.length (rowValues cols)
        (chunks (conn.chunkSizeOr chunkSize) entities)))
    else .ok (some (.rows sql (rowValues cols) entities))
  | .deleteMany table toBoundValue ids chunkSize =>
    let parts := chunks (conn.chunkSizeOr chunkSize) ids
    if ids.isEmpty then .ok none
    else
      match table.pkColumns with
      | [] => .error (.dbException "delete_many requires a primary key column")
      | [pk] =>
        if conn.arrayBatchInsert then
          .ok (some (.arrays (DbContext.deleteSql conn table pk) 1 (fun id => [toBoundValue id])
            parts))
        else .ok (some (.statements (DbContext.deleteInSql conn table pk) toBoundValue parts))
      | _ => .error (.dbException "delete_many does not support composite primary keys")
  | .updateMany table entities chunkSize =>
    let sql := DbContext.updateSql conn table
    let cols := DbContext.updateOrder table
    if entities.isEmpty then .ok none
    else if table.pkColumns.isEmpty then
      .error (.dbException "update_many requires a primary key column")
    else if conn.arrayBatchInsert then
      .ok (some (.arrays sql cols.length (rowValues cols)
        (chunks (conn.chunkSizeOr chunkSize) entities)))
    else .ok (some (.rows sql (rowValues cols) entities))
  | .upsertMany table entities conflictColumns updateColumns =>
    match entities with
    | [] => .ok none
    | front :: _ =>
      (DbContext.upsertSql conn table front conflictColumns updateColumns).map fun sql =>
        some (.rows sql (rowValues table.columns) entities)

section PlanCases

variable {conn : Connection} {E : Type} {table : TableDef E} {entities : List E} {chunkSize : ℕ}
  {p? : Option BatchPlan}

/-- Nothing, an array for each chunk or a statement for each row. -/
theorem plan_insertMany_cases
    (hplan : BatchOperation.plan conn (.insertMany table entities chunkSize) = .ok p?) :
    (entities = [] ∧ p? = none) ∨
    (entities ≠ [] ∧ conn.arrayBatchInsert = true ∧
      p? = some (.arrays (DbContext.insertSql conn table) table.insertColumns.length
        (rowValues table.insertColumns) (chunks (conn.chunkSizeOr chunkSize) entities))) ∨
    (entities ≠ [] ∧ conn.arrayBatchInsert = false ∧
      p? = some (.rows (DbContext.insertSql conn table) (rowValues table.insertColumns)
        entities)) := by
  simp only [BatchOperation.plan, List.isEmpty_iff] at hplan
  split_ifs at hplan with hempty harray
  · exact .inl ⟨hempty, (Except.ok.inj hplan).symm⟩
  · exact .inr (.inl ⟨hempty, harray, (Except.ok.inj hplan).symm⟩)
  · exact .inr (.inr ⟨hempty, Bool.eq_false_iff.mpr harray, (Except.ok.inj hplan).symm⟩)

/-- What `update_many` plans, with nothing to do or with something. -/
theorem plan_updateMany_cases
    (hplan : BatchOperation.plan conn (.updateMany table entities chunkSize) = .ok p?) :
    (entities = [] ∧ p? = none) ∨
    (entities ≠ [] ∧ table.pkColumns ≠ [] ∧ conn.arrayBatchInsert = true ∧
      p? = some (.arrays (DbContext.updateSql conn table) (DbContext.updateOrder table).length
        (rowValues (DbContext.updateOrder table))
        (chunks (conn.chunkSizeOr chunkSize) entities))) ∨
    (entities ≠ [] ∧ table.pkColumns ≠ [] ∧ conn.arrayBatchInsert = false ∧
      p? = some (.rows (DbContext.updateSql conn table) (rowValues (DbContext.updateOrder table))
        entities)) := by
  simp only [BatchOperation.plan, List.isEmpty_iff] at hplan
  split_ifs at hplan with hempty hpk harray
  · exact .inl ⟨hempty, (Except.ok.inj hplan).symm⟩
  · exact .inr (.inl ⟨hempty, hpk, harray, (Except.ok.inj hplan).symm⟩)
  · exact .inr (.inr
      ⟨hempty, hpk, Bool.eq_false_iff.mpr harray, (Except.ok.inj hplan).symm⟩)

/-- What `delete_many` plans, with nothing to do or with something. -/
theorem plan_deleteMany_cases {Id : Type} {toBoundValue : Id → BoundValue} {ids : List Id}
    (hplan : BatchOperation.plan conn (.deleteMany table toBoundValue ids chunkSize) = .ok p?) :
    (ids = [] ∧ p? = none) ∨
    (ids ≠ [] ∧ ∃ pk, table.pkColumns = [pk] ∧
      ((conn.arrayBatchInsert = true ∧
        p? = some (.arrays (DbContext.deleteSql conn table pk) 1 (fun id => [toBoundValue id])
          (chunks (conn.chunkSizeOr chunkSize) ids))) ∨
      (conn.arrayBatchInsert = false ∧
        p? = some (.statements (DbContext.deleteInSql conn table pk) toBoundValue
          (chunks (conn.chunkSizeOr chunkSize) ids))))) := by
  simp only [BatchOperation.plan, List.isEmpty_iff] at hplan
  by_cases hempty : ids = []
  · rw [if_pos hempty] at hplan
    exact .inl ⟨hempty, (Except.ok.inj hplan).symm⟩
  · rw [if_neg hempty] at hplan
    refine .inr ⟨hempty, ?_⟩
    rcases hpk : table.pkColumns with _ | ⟨pk, _ | ⟨pk', rest⟩⟩
    · rw [hpk] at hplan
      contradiction
    · simp only [hpk] at hplan
      refine ⟨pk, rfl, ?_⟩
      split_ifs at hplan with harray
      · exact .inl ⟨harray, (Except.ok.inj hplan).symm⟩
      · exact .inr ⟨Bool.eq_false_iff.mpr harray, (Except.ok.inj hplan).symm⟩
    · rw [hpk] at hplan
      contradiction

/-- What `upsert_many` plans, with nothing to do or with something. -/
theorem plan_upsertMany_cases {conflictColumns updateColumns : List String}
    (hplan : BatchOperation.plan conn (.upsertMany table entities conflictColumns updateColumns) =
      .ok p?) :
    (entities = [] ∧ p? = none) ∨
    ∃ front rest sql, entities = front :: rest ∧
      DbContext.upsertSql conn table front conflictColumns updateColumns = .ok sql ∧
      p? = some (.rows sql (rowValues table.columns) entities) := by
  cases entities with
  | nil => exact .inl ⟨rfl, (Except.ok.inj hplan).symm⟩
  | cons front rest =>
    simp only [BatchOperation.plan] at hplan
    cases hsql : DbContext.upsertSql conn table front conflictColumns updateColumns with
    | error e =>
      rw [hsql] at hplan
      contradiction
    | ok sql =>
      rw [hsql] at hplan
      exact .inr ⟨front, rest, sql, rfl, hsql, (Except.ok.inj hplan).symm⟩

end PlanCases

section Plans

variable (conn : Connection) {α : Type}

/-- A plan of arrays runs as a loop over the chunks. -/
theorem run_arrays (sql : Text) (colCount : ℕ) (row : α → List BoundValue)
    (parts : List (List α)) : (BatchPlan.arrays sql colCount row parts).run conn =
      (conn.transaction (sumOver (fun part => conn.insertManyBatch sql (part.flatMap row)
        colCount part.length) parts)).discard := by
  have hsum := discard_sumOver
    (g := fun part => (BatchUnit.array sql colCount (part.map row)).calls)
    (f := fun part => conn.insertManyBatch sql (part.flatMap row) colCount part.length)
    (fun part => by
      rw [discard_insertManyBatch, BatchUnit.calls, callAll_singleton, List.length_map,
        List.flatMap_def]) parts
  rw [discard_transaction, hsum]
  simp [BatchPlan.run, BatchPlan.arrays, BatchPlan.before, BatchPlan.within, callAll,
    List.flatMap_map]

/-- A plan of rows runs as a loop over the rows. -/
theorem run_rows (sql : Text) (row : α → List BoundValue) (xs : List α) :
    (BatchPlan.rows sql row xs).run conn = (do
      call conn.driver (.prepare sql)
      (conn.transaction (sumOver (fun x => conn.executeAgain (row x)) xs)).discard) := by
  have hsum := discard_sumOver
    (f := fun x => conn.executeAgain (row x)) (fun x => discard_executeAgain conn (row x)) xs
  rw [discard_transaction, hsum]
  simp [BatchPlan.run, BatchPlan.rows, BatchPlan.before, BatchPlan.within, BatchUnit.calls,
    List.flatMap_map]

/-- A plan of statements runs as a loop over the chunks. -/
theorem run_statements (sql : ℕ → Text) (value : α → BoundValue) (parts : List (List α)) :
    (BatchPlan.statements sql value parts).run conn =
      (conn.transaction (sumOver (fun part => do
        call conn.driver (.prepare (sql part.length))
        conn.executeWith (part.map value)) parts)).discard := by
  have hsum := discard_sumOver
    (g := fun part => (BatchUnit.own (sql part.length) (part.map value)).calls)
    (f := fun part => do
      call conn.driver (.prepare (sql part.length))
      conn.executeWith (part.map value))
    (fun part => by rw [discard_bind, discard_executeWith, BatchUnit.calls, callAll]) parts
  rw [discard_transaction, hsum]
  simp [BatchPlan.run, BatchPlan.statements, BatchPlan.before, BatchPlan.within, callAll,
    List.flatMap_map]

/-- A batch operation throws on its arguments, has nothing to do, or runs its plan. -/
theorem BatchOperation.run_eq (op : BatchOperation) : op.run conn = match op.plan conn with
    | .error e => throw e
    | .ok none => return
    | .ok (some p) => p.run conn := by
  cases op with
  | insertMany table entities chunkSize =>
    simp only [BatchOperation.run, DbContext.insertMany, BatchOperation.plan]
    split
    · rfl
    · split
      · exact (run_arrays conn _ _ _ _).symm
      · exact (run_rows conn _ _ _).symm
  | deleteMany table toBoundValue ids chunkSize =>
    simp only [BatchOperation.run, DbContext.deleteMany, BatchOperation.plan]
    split
    · simp
    · rcases table.pkColumns with _ | ⟨pk, _ | ⟨pk', rest⟩⟩
      · exact discard_throw _
      · simp only
        split
        · refine Eq.trans ?_ (run_arrays conn _ _ _ _).symm
          simp only [List.map_eq_flatMap]
        · exact (run_statements conn _ _ _).symm
      · exact discard_throw _
  | updateMany table entities chunkSize =>
    simp only [BatchOperation.run, DbContext.updateMany, BatchOperation.plan]
    split
    · simp
    · split
      · simp
      · split
        · exact (run_arrays conn _ _ _ _).symm
        · exact (discard_bind _ _).trans (run_rows conn _ _ _).symm
  | upsertMany table entities conflictColumns updateColumns =>
    cases entities with
    | nil => simp [BatchOperation.run, DbContext.upsertMany, BatchOperation.plan]
    | cons front rest =>
      simp only [BatchOperation.run, DbContext.upsertMany, BatchOperation.plan]
      cases DbContext.upsertSql conn table front conflictColumns updateColumns with
      | error e => rfl
      | ok sql =>
        have hlift : (liftM (Except.ok sql : Except Exn Text) : Session Text) = pure sql := rfl
        rw [hlift, pure_bind]
        exact (discard_bind _ _).trans (run_rows conn _ _ _).symm

end Plans

end CppLinq
