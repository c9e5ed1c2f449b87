import CppLinq.Upserts

/-!
# One statement for all entities

`upsert_many` has its statement made for the first entity and executes it for each of
them, where `upsert` makes one for each. The two leave the same database as long as the
statement does not depend on the entity. On Informix it does : the types of its casts are
those of the values of the first entity (`repeatsUpsert_iff`).
-/

namespace CppLinq

/-! ## Texts that differ between holes -/

/-- Words are equal if their texts are. -/
theorem lit_injective : Function.Injective lit := by
  intro s s' h
  have hchars := List.map_injective_iff.mpr (fun _ _ => Sym.chr.inj) h
  exact String.toList_inj.mp hchars

/-- What stands before the first hole of a text. -/
theorem append_hole_inj {x x' r r' : Text} {i : ℕ} (hx : holes x = []) (hx' : holes x' = [])
    (h : x ++ .hole i :: r = x' ++ .hole i :: r') : x = x' ∧ r = r' := by
  induction x generalizing x' with
  | nil =>
    rcases x' with _ | ⟨_ | j, x'⟩
    · exact ⟨rfl, by simpa using h⟩
    · simp at h
    · simp at hx'
  | cons s x ih =>
    rcases s with c | j
    · rcases x' with _ | ⟨s', x'⟩
      · simp at h
      · obtain ⟨rfl, htail⟩ := List.cons.inj h
        obtain ⟨rfl, hr⟩ := ih (by simpa using hx) (by simpa using hx') htail
        exact ⟨rfl, hr⟩
    · simp at hx

namespace Dialect

/-- A parameter of the `MERGE` for Informix, in a cast. -/
def informixCast (i : ℕ) (type column : String) : Text :=
  lit "CAST(" ++ placeholder i ++ lit (" AS " ++ type ++ ") AS ") ++ quoteId .informix column

/-- The casts of a row, its parameters numbered from `k` on. -/
def informixCasts (k : ℕ) (row : List (BoundValue × String)) : Text :=
  commaList (row.mapIdx fun i p => informixCast (k + i) (informixCastType p.1) p.2)

theorem informixCasts_cons (k : ℕ) (p q : BoundValue × String)
    (row : List (BoundValue × String)) :
    informixCasts k (p :: q :: row) = informixCast k (informixCastType p.1) p.2 ++ lit ", " ++
      informixCasts (k + 1) (q :: row) := by
  simp [informixCasts, commaList, joinSep, List.mapIdx_cons, Nat.add_assoc, Nat.add_comm 1]

theorem informixCasts_head (k : ℕ) (q : BoundValue × String) (row : List (BoundValue × String)) :
    ∃ rest, informixCasts k (q :: row) = lit "CAST(" ++ .hole k :: rest := by
  cases row with
  | nil =>
    refine ⟨lit (" AS " ++ informixCastType q.1 ++ ") AS ") ++ quoteId .informix q.2, ?_⟩
    simp [informixCasts, commaList, joinSep, informixCast, placeholder]
  | cons p row =>
    refine ⟨lit (" AS " ++ informixCastType q.1 ++ ") AS ") ++ quoteId .informix q.2 ++
      lit ", " ++ informixCasts (k + 1) (p :: row), ?_⟩
    simp [informixCasts_cons, informixCast, placeholder]

/-- The type of a cast can be read off its text. -/
theorem castType_inj {t t' : String} {y : Text}
    (h : lit (" AS " ++ t ++ ") AS ") ++ y = lit (" AS " ++ t' ++ ") AS ") ++ y) : t = t' := by
  have hlit := lit_injective (List.append_cancel_right h)
  have hchars := congrArg String.toList hlit
  simp only [String.toList_append, List.append_assoc] at hchars
  exact String.toList_inj.mp (List.append_cancel_right (List.append_cancel_left hchars))

/-- The casts of two rows of values for the same columns have the same text only where the
types are the same. -/
theorem informixCasts_inj {α : Type} (value value' : α → BoundValue) (name : α → String)
    (cols : List α) (k : ℕ) (h : informixCasts k (cols.map fun c => (value c, name c)) =
      informixCasts k (cols.map fun c => (value' c, name c))) :
    ∀ c ∈ cols, informixCastType (value c) = informixCastType (value' c) := by
  induction cols generalizing k with
  | nil => simp
  | cons c cols ih =>
    cases cols with
    | nil =>
      simp only [informixCasts, informixCast, commaList, joinSep, List.map_cons, List.map_nil,
        List.mapIdx_cons, List.mapIdx_nil, List.append_assoc] at h
      have htype := castType_inj (List.append_cancel_left (List.append_cancel_left h))
      simpa using htype
    | cons b cols =>
      have hrest := h
      simp only [List.map_cons, informixCasts_cons, informixCast, List.append_assoc] at hrest
      obtain ⟨rest, hleft⟩ := informixCasts_head (k + 1) (value b, name b)
        (cols.map fun c => (value c, name c))
      obtain ⟨rest', hright⟩ := informixCasts_head (k + 1) (value' b, name b)
        (cols.map fun c => (value' c, name c))
      rw [hleft, hright] at hrest
      have hcut := List.append_cancel_left (List.append_cancel_left hrest)
      simp only [← List.append_assoc] at hcut
      -- the two texts up to the hole of the next cast
      obtain ⟨hhead, hrest⟩ := append_hole_inj (by simp) (by simp) hcut
      have hnext : informixCasts (k + 1) ((b :: cols).map fun c => (value c, name c)) =
          informixCasts (k + 1) ((b :: cols).map fun c => (value' c, name c)) := by
        rw [List.map_cons, List.map_cons, hleft, hright, hrest]
      simp only [List.append_assoc] at hhead
      have htype := castType_inj hhead
      rw [List.forall_mem_cons]
      exact ⟨htype, ih (k + 1) hnext⟩

/-- The statement for a row of values, one for each column. -/
theorem informixUpsert_eq {α : Type} (table : String) (value : α → BoundValue)
    (name : α → String) (cols : List α) (conflict upd : List String) :
    informixUpsert table (cols.map name) (cols.map value) conflict upd =
      lit "MERGE INTO " ++ quoteId .informix table ++ lit " AS target USING (SELECT " ++
      informixCasts 0 (cols.map fun c => (value c, name c)) ++
      lit " FROM \"informix\".systables WHERE tabid = 1) AS source ON (" ++
      mergeTail .informix "target" "source" (cols.map name) conflict upd := by
  have hcasts : ((cols.map name).mapIdx fun i c => lit "CAST(" ++ placeholder i ++
      lit (" AS " ++ ((cols.map value)[i]?.map informixCastType).getD "VARCHAR(255)" ++
        ") AS ") ++ quoteId .informix c) =
      (cols.map fun c => (value c, name c)).mapIdx fun i p =>
        informixCast (0 + i) (informixCastType p.1) p.2 := by
    refine List.ext_getElem (by simp) fun i hi hi' => ?_
    have hlength : i < cols.length := by simpa using hi
    simp [informixCast, List.getElem?_eq_getElem hlength]
  rw [informixUpsert, hcasts]
  rfl

/-- The statements for two rows are the same only where the types of the casts are. -/
theorem informixUpsert_inj {α : Type} {table : String} {value value' : α → BoundValue}
    {name : α → String} {cols : List α} {conflict upd : List String} :
    informixUpsert table (cols.map name) (cols.map value) conflict upd =
        informixUpsert table (cols.map name) (cols.map value') conflict upd ↔
      ∀ c ∈ cols, informixCastType (value c) = informixCastType (value' c) := by
  rw [informixUpsert_eq, informixUpsert_eq]
  constructor
  · intro h
    refine informixCasts_inj value value' name cols 0 ?_
    simp only [List.append_assoc] at h
    have hcut := List.append_cancel_left (List.append_cancel_left (List.append_cancel_left h))
    exact List.append_cancel_right hcut
  · intro h
    have hcasts : informixCasts 0 (cols.map fun c => (value c, name c)) =
        informixCasts 0 (cols.map fun c => (value' c, name c)) := by
      rw [informixCasts, informixCasts]
      congr 1
      refine List.ext_getElem (by simp) fun i hi hi' => ?_
      have hlength : i < cols.length := by simpa using hi
      simp [informixCast, h cols[i] (List.getElem_mem hlength)]
    rw [hcasts]

end Dialect

/-! ## Statements of entities -/

namespace DbContext

variable (conn : Connection) {E : Type} (table : TableDef E)
  (conflictColumns updateColumns : List String)

/-- The text of an upsert is a matter of its table, its values and its lists. -/
theorem upsertSql_eq (e : E) : upsertSql conn table e conflictColumns updateColumns =
    conn.dialect.generateUpsert table.name table.columnNames (rowValues table.columns e)
      (table.conflictColumns conflictColumns)
      (table.updateColumns (table.conflictColumns conflictColumns) updateColumns) := by
  rw [upsertSql, CppLinq.generateUpsert]
  cases conn.dialect.generateUpsert table.name table.columnNames (rowValues table.columns e)
    (table.conflictColumns conflictColumns)
    (table.updateColumns (table.conflictColumns conflictColumns) updateColumns) <;> rfl

/-- `upsert` prepares the statement of its entity and executes it. -/
theorem upsert_eq (e : E) : upsert conn table e conflictColumns updateColumns = (do
    let sql ← upsertSql conn table e conflictColumns updateColumns
    call conn.driver (.prepare sql)
    conn.executeWith (rowValues table.columns e)) := by
  rw [upsertSql_eq, upsert, CppLinq.generateUpsert]
  cases conn.dialect.generateUpsert table.name table.columnNames (rowValues table.columns e)
    (table.conflictColumns conflictColumns)
    (table.updateColumns (table.conflictColumns conflictColumns) updateColumns) <;> rfl

/-- Apart from Informix, the statement does not depend on the entity. -/
theorem upsertSql_eq_of_ne (hd : conn.dialect ≠ .informix) (e e' : E) :
    upsertSql conn table e conflictColumns updateColumns =
      upsertSql conn table e' conflictColumns updateColumns := by
  rw [upsertSql_eq, upsertSql_eq]
  cases h : conn.dialect with
  | informix => exact absurd h hd
  | _ => rfl

/-- On Informix the text is a matter of the types of the values too. -/
theorem upsertSql_informix (hd : conn.dialect = .informix) (e : E) :
    upsertSql conn table e conflictColumns updateColumns = .ok (Dialect.informixUpsert table.name
      (table.columns.map (·.name)) (table.columns.map (·.value e))
      (table.conflictColumns conflictColumns)
      (table.updateColumns (table.conflictColumns conflictColumns) updateColumns)) := by
  rw [upsertSql_eq, hd]
  rfl

/-- Two entities have the same statement, but on Informix only if the casts of their
values have the same types. -/
theorem upsertSql_eq_iff (e e' : E) :
    upsertSql conn table e conflictColumns updateColumns =
        upsertSql conn table e' conflictColumns updateColumns ↔
      (conn.dialect = .informix → ∀ col ∈ table.columns,
        Dialect.informixCastType (col.value e) = Dialect.informixCastType (col.value e')) := by
  by_cases hd : conn.dialect = .informix
  · rw [upsertSql_informix conn table _ _ hd, upsertSql_informix conn table _ _ hd,
      Except.ok.injEq, Dialect.informixUpsert_inj]
    exact (imp_iff_right hd).symm
  · exact iff_of_true (upsertSql_eq_of_ne conn table _ _ hd e e') fun h => absurd h hd

/-- Whether there is a statement does not depend on the entity. -/
theorem upsertSql_cases :
    (∃ x, ∀ e, upsertSql conn table e conflictColumns updateColumns = .error x) ∨
      ∃ sql : E → Text, ∀ e, upsertSql conn table e conflictColumns updateColumns =
        .ok (sql e) := by
  by_cases hd : conn.dialect = .informix
  · exact Or.inr ⟨_, upsertSql_informix conn table _ _ hd⟩
  · rcases isEmpty_or_nonempty E with hE | ⟨⟨e⟩⟩
    · exact Or.inr ⟨fun e => hE.elim e, fun e => hE.elim e⟩
    · cases h : upsertSql conn table e conflictColumns updateColumns with
      | error x => exact Or.inl ⟨x, fun e' => (upsertSql_eq_of_ne conn table _ _ hd e' e).trans h⟩
      | ok sql =>
        exact Or.inr ⟨fun _ => sql, fun e' => (upsertSql_eq_of_ne conn table _ _ hd e' e).trans h⟩

variable {conn table conflictColumns updateColumns}

theorem discard_upsert {e : E} {sql : Text}
    (h : upsertSql conn table e conflictColumns updateColumns = .ok sql) :
    (upsert conn table e conflictColumns updateColumns).discard =
      callAll conn.driver (BatchUnit.own sql (rowValues table.columns e)).calls := by
  have hlift : (liftM (Except.ok sql : Except Exn Text) : Session Text) = pure sql := rfl
  rw [upsert_eq, h, hlift, pure_bind, discard_bind, discard_executeWith, BatchUnit.calls, callAll]

theorem upsert_error {e : E} {x : Exn}
    (h : upsertSql conn table e conflictColumns updateColumns = .error x) :
    upsert conn table e conflictColumns updateColumns = throw x := by
  rw [upsert_eq, h]
  rfl

end DbContext

/-! ## What the calls leave behind -/

/-- Two writes are one write. -/
theorem Store.write_write {δ : Type} (s : Store δ) (f g : δ → δ) :
    (s.write f).write g = s.write (g ∘ f) := by
  obtain ⟨durable, _ | p⟩ := s <;> rfl

theorem Store.write_id {δ : Type} (s : Store δ) : s.write id = s := by
  obtain ⟨durable, _ | p⟩ := s <;> rfl

/-- A transaction that begins sees what was seen before. -/
theorem Store.seen_begin {δ : Type} (s : Store δ) (n : Nesting) : (s.begin n).seen = s.seen := by
  obtain ⟨durable, _ | p⟩ := s
  · rfl
  · cases n <;> rfl

/-- The result that was dropped. -/
theorem ok_of_discard {α : Type} {m : Session α} {log log' : List DriverCall}
    (h : m.discard log = (.ok (), log')) : ∃ a, m log = (.ok a, log') := by
  rw [discard_eq] at h
  rcases hm : m log with ⟨x | a, l⟩
  · rw [hm] at h
    cases h
  · rw [hm] at h
    cases h
    exact ⟨a, rfl⟩

theorem discard_of_ok {α : Type} {m : Session α} {log log' : List DriverCall} {a : α}
    (h : m log = (.ok a, log')) : m.discard log = (.ok (), log') := by
  rw [discard_eq, h]

section Runs

variable {δ : Type} {server : Server δ} {db : Database δ} {conn : Connection}

/-- Calls that return have their effects. -/
theorem after_callAll {cs log : List DriverCall}
    (h : callAll (server.driver db) cs [] = (.ok (), log)) :
    server.after db log = db.applyAll server cs := by
  rcases callAll_cases (server.driver db) cs [] with ⟨haccepts, hrun⟩ | ⟨e, pre, c, -, -, -, hrun⟩
  · rw [hrun] at h
    cases h
    exact Server.after_accepts haccepts
  · rw [hrun] at h
    cases h

/-- A plan that returns has its effect, and is committed. -/
theorem after_plan {p : BatchPlan} {log : List DriverCall}
    (h : p.run (conn.on server db) [] = (.ok (), log)) :
    (server.after db log).store.Settled (p.result server db) := by
  have hdriver : (conn.on server db).driver = server.driver db := rfl
  rw [BatchPlan.run, Session.bind_eq, hdriver] at h
  rcases callAll_cases (server.driver db) p.before [] with
    ⟨hbefore, hrun⟩ | ⟨e, pre, c, -, -, -, hrun⟩
  · rw [hrun, List.nil_append] at h
    simp only at h
    rw [Connection.transaction_eq, hdriver] at h
    cases hbegin : server.driver db p.before .beginTransaction with
    | some e =>
      rw [hbegin] at h
      cases h
    | none =>
      have hbegun : (server.driver db).Accepts [] (p.before ++ [.beginTransaction]) :=
        (accepts_append _ _).mpr ⟨hbefore, by simpa using hbegin⟩
      have hafter : server.after db (p.before ++ [.beginTransaction]) = p.begun server db :=
        Server.after_accepts hbegun
      rw [hbegin] at h
      simp only at h
      rcases callAll_cases (server.driver db) p.within (p.before ++ [.beginTransaction]) with
        ⟨hwithin, hrun⟩ | ⟨e, pre, c, -, -, -, hrun⟩
      · rw [hrun] at h
        simp only at h
        cases hcommit : server.driver db (p.before ++ [.beginTransaction] ++ p.within) .commit with
        | some e =>
          rw [hcommit] at h
          cases h
        | none =>
          rw [hcommit] at h
          cases h
          rw [Server.after_concat, hcommit, Server.after_accepts hwithin, hafter]
          exact Store.commit_settled _
      · rw [hrun] at h
        cases h
  · rw [hrun] at h
    cases h

/-- What `upsert_many` leaves behind : the statement of the first entity, for each. -/
theorem after_rows {α : Type} {sql : Text} {row : α → List BoundValue} {xs : List α}
    {log : List DriverCall}
    (h : (BatchPlan.rows sql row xs).run (conn.on server db) [] = (.ok (), log)) :
    (server.after db log).store.Settled
      (server.execAll (xs.map fun x => (sql, row x)) db.store.seen) := by
  have hsettled := after_plan h
  rwa [BatchPlan.result, seen_rows row xs (begun_sql rfl db), begun_store, Store.seen_begin]
    at hsettled

/-- A statement of its own for each. -/
theorem store_owns {α : Type} (sql : α → Text) (row : α → List BoundValue) (xs : List α)
    (db : Database δ) :
    (db.applyAll server (xs.flatMap fun x => (BatchUnit.own (sql x) (row x)).calls)).store =
      db.store.write (server.execAll (xs.map fun x => (sql x, row x))) := by
  induction xs generalizing db with
  | nil => exact (Store.write_id _).symm
  | cons x xs ih =>
    have hunit : db.applyAll server (BatchUnit.own (sql x) (row x)).calls =
        { store := db.store.write (server.exec (sql x) (row x)),
          sql := sql x, bound := row x } :=
      Database.applyAll_execute ⟨db.store, sql x, []⟩ rfl (row x)
    rw [List.flatMap_cons, Database.applyAll_append, hunit, ih, Store.write_write]
    rfl

end Runs

/-! ## The two runs -/

/-- `upsert_many` does what `upsert` does for one entity after another : where nothing
throws, the connection sees the same afterwards, and the same is durable unless it had a
transaction open. -/
def RepeatsUpsert {E : Type} (d : Dialect) (table : TableDef E) (entities : List E)
    (conflictColumns updateColumns : List String) : Prop :=
  ∀ (δ : Type) (server : Server δ) (db : Database δ) (conn : Connection), conn.dialect = d →
    ∀ n m log log',
      DbContext.upsertMany (conn.on server db) table entities conflictColumns updateColumns [] =
        (.ok n, log) →
      sumOver (fun e => DbContext.upsert (conn.on server db) table e conflictColumns
        updateColumns) entities [] = (.ok m, log') →
      (server.after db log).store.seen = (server.after db log').store.seen ∧
        (db.store.pending = none → (server.after db log).store = (server.after db log').store)

section Upserts

variable {δ : Type} {server : Server δ} {db : Database δ} {conn : Connection} {E : Type}
  {table : TableDef E} {front : E} {rest : List E} {conflictColumns updateColumns : List String}
  {sql : E → Text}

/-- What `upsert_many` plans, where every entity has a text. -/
theorem plan_upsertMany (hsql : ∀ e, DbContext.upsertSql (conn.on server db) table e
      conflictColumns updateColumns = .ok (sql e)) :
    (DbContext.upsertMany (conn.on server db) table (front :: rest) conflictColumns
      updateColumns).discard =
      (BatchPlan.rows (sql front) (rowValues table.columns) (front :: rest)).run
        (conn.on server db) := by
  have hrun := BatchOperation.run_eq (conn.on server db)
    (.upsertMany table (front :: rest) conflictColumns updateColumns)
  simpa only [BatchOperation.run, BatchOperation.plan, hsql, Except.map] using hrun

/-- What the single upserts do. -/
theorem discard_upserts (hsql : ∀ e, DbContext.upsertSql (conn.on server db) table e
      conflictColumns updateColumns = .ok (sql e)) (es : List E) :
    (sumOver (fun e => DbContext.upsert (conn.on server db) table e conflictColumns
      updateColumns) es).discard = callAll (server.driver db)
        (es.flatMap fun e => (BatchUnit.own (sql e) (rowValues table.columns e)).calls) := by
  have hone : ∀ e, (DbContext.upsert (conn.on server db) table e conflictColumns
      updateColumns).discard = callAll (server.driver db)
        (BatchUnit.own (sql e) (rowValues table.columns e)).calls :=
    fun e => DbContext.discard_upsert (hsql e)
  exact discard_sumOver hone es

/-- The store after `upsert_many`, and after `upsert` for each entity. -/
theorem stores_upserts (hsql : ∀ e, DbContext.upsertSql (conn.on server db) table e
      conflictColumns updateColumns = .ok (sql e)) {n m : ℕ} {log log' : List DriverCall}
    (hmany : DbContext.upsertMany (conn.on server db) table (front :: rest) conflictColumns
      updateColumns [] = (.ok n, log))
    (heach : sumOver (fun e => DbContext.upsert (conn.on server db) table e conflictColumns
      updateColumns) (front :: rest) [] = (.ok m, log')) :
    (server.after db log).store.Settled (server.execAll
        ((front :: rest).map fun e => (sql front, rowValues table.columns e)) db.store.seen) ∧
      (server.after db log').store = db.store.write (server.execAll
        ((front :: rest).map fun e => (sql e, rowValues table.columns e))) := by
  have hplan := discard_of_ok hmany
  rw [plan_upsertMany hsql] at hplan
  have hcalls := discard_of_ok heach
  rw [discard_upserts hsql] at hcalls
  refine ⟨after_rows hplan, ?_⟩
  rw [after_callAll hcalls]
  exact store_owns sql (rowValues table.columns) (front :: rest) db

end Upserts

/-- A server that keeps what it executes and never fails. -/
def recordingServer : Server (List (Text × List BoundValue)) where
  kind := .postgres
  exec := fun sql params x => x ++ [(sql, params)]
  fails := fun _ _ => none
  spoils := fun _ _ => id

/-- The database of a server that has executed nothing. -/
def emptyRecord : Database (List (Text × List BoundValue)) where
  store := ⟨[], none⟩
  sql := []
  bound := []

theorem driver_recordingServer (log : List DriverCall) (c : DriverCall) :
    recordingServer.driver emptyRecord log c = none := by
  have hkind : recordingServer.kind ≠ .sqlite := by decide
  cases c <;> simp [Server.driver, Server.answer, Server.refuses, hkind] <;> rfl

/-- The recording server appends the statements. -/
theorem execAll_recordingServer (sts x : List (Text × List BoundValue)) :
    recordingServer.execAll sts x = x ++ sts := by
  induction sts generalizing x with
  | nil => exact (List.append_nil x).symm
  | cons st sts ih => exact (ih (x ++ [st])).trans (List.append_cons x st sts).symm

section Recording

variable {conn : Connection} {E : Type} {table : TableDef E} {front : E} {rest : List E}
  {conflictColumns updateColumns : List String} {sql : E → Text}

variable (conn) in
/-- There the two runs are the same only if the entities have the same statement. -/
theorem sql_eq_of_repeats (hsql : ∀ e, DbContext.upsertSql
      (conn.on recordingServer emptyRecord) table e conflictColumns updateColumns = .ok (sql e))
    (h : RepeatsUpsert conn.dialect table (front :: rest) conflictColumns updateColumns) :
    ∀ e ∈ front :: rest, sql e = sql front := by
  have hmany : ∃ log, (BatchPlan.rows (sql front) (rowValues table.columns)
      (front :: rest)).run (conn.on recordingServer emptyRecord) [] = (.ok (), log) := by
    have hsettled : emptyRecord.store.Settled [] := rfl
    rcases run_plan_cases conn hsettled
      (.rows (sql front) (rowValues table.columns) (front :: rest)) with
      ⟨e, log, -, ⟨pre, c, post, -, -, hthrows⟩, -⟩ | ⟨log, hrun, -, -⟩
    · rw [driver_recordingServer] at hthrows
      contradiction
    · exact ⟨log, hrun⟩
  have heach : ∃ log, callAll (recordingServer.driver emptyRecord) ((front :: rest).flatMap
      fun e => (BatchUnit.own (sql e) (rowValues table.columns e)).calls) [] =
        (.ok (), log) := by
    rcases callAll_cases (recordingServer.driver emptyRecord) ((front :: rest).flatMap
      fun e => (BatchUnit.own (sql e) (rowValues table.columns e)).calls) [] with
      ⟨-, hrun⟩ | ⟨e, pre, c, -, -, hc, -⟩
    · exact ⟨_, hrun⟩
    · rw [driver_recordingServer] at hc
      contradiction
  obtain ⟨log, hmany⟩ := hmany
  obtain ⟨log', heach⟩ := heach
  rw [← plan_upsertMany hsql] at hmany
  rw [← discard_upserts hsql] at heach
  obtain ⟨n, hmany⟩ := ok_of_discard hmany
  obtain ⟨m, heach⟩ := ok_of_discard heach
  obtain ⟨hsettled, hstore⟩ := stores_upserts hsql hmany heach
  have hseen := (h _ recordingServer emptyRecord conn rfl n m log log' hmany heach).1
  rw [hsettled, hstore, Store.seen_write, execAll_recordingServer] at hseen
  simp only [Store.seen, execAll_recordingServer, emptyRecord, Option.getD_none,
    List.nil_append] at hseen
  intro e he
  have hpair := List.map_inj_left.mp hseen e he
  exact (Prod.mk.inj hpair).1.symm

/-- Entities whose texts are equal have equal casts. -/
theorem castType_eq_of_repeats (h : RepeatsUpsert .informix table (front :: rest) conflictColumns
      updateColumns) : ∀ e ∈ front :: rest, ∀ col ∈ table.columns,
        Dialect.informixCastType (col.value e) = Dialect.informixCastType (col.value front) := by
  let conn : Connection := { postgresConnection with dialect := .informix }
  have hsql := DbContext.upsertSql_informix (conn.on recordingServer emptyRecord) table
    conflictColumns updateColumns rfl
  intro e he
  exact Dialect.informixUpsert_inj.mp (sql_eq_of_repeats conn hsql h e he)

end Recording

/-- `upsert_many` repeats `upsert` just when the first entity has its casts typed like
every other one, which matters on Informix alone. -/
theorem repeatsUpsert_iff {E : Type} (d : Dialect) (table : TableDef E) (front : E)
    (rest : List E) (conflictColumns updateColumns : List String) :
    RepeatsUpsert d table (front :: rest) conflictColumns updateColumns ↔
      (d = .informix → ∀ e ∈ front :: rest, ∀ col ∈ table.columns,
        Dialect.informixCastType (col.value e) = Dialect.informixCastType (col.value front)) := by
  constructor
  · rintro h rfl
    exact castType_eq_of_repeats h
  · rintro h δ server db conn rfl n m log log' hmany heach
    rcases DbContext.upsertSql_cases (conn.on server db) table conflictColumns updateColumns with
      ⟨x, hsql⟩ | ⟨sql, hsql⟩
    · rw [sumOver, DbContext.upsert_error (hsql front)] at heach
      cases heach
    · obtain ⟨hsettled, hstore⟩ := stores_upserts hsql hmany heach
      have hlist : ((front :: rest).map fun e => (sql front, rowValues table.columns e)) =
          (front :: rest).map fun e => (sql e, rowValues table.columns e) := by
        refine List.map_congr_left fun e he => ?_
        have heq := (DbContext.upsertSql_eq_iff (conn.on server db) table conflictColumns
          updateColumns e front).mpr fun hd => h hd e he
        rw [hsql, hsql, Except.ok.injEq] at heq
        rw [heq]
      rw [hlist] at hsettled
      refine ⟨?_, fun hpending => ?_⟩
      · rw [hsettled, hstore, Store.seen_write]
        rfl
      · rw [hsettled, hstore, Store.write, hpending, Store.seen, hpending]
        rfl

/-- Films and how they are rated, if they are. -/
def ratingsTable : TableDef (Int64 × Option Int64) where
  name := "ratings"
  columns := [
    { name := "film", isPrimaryKey := true, value := fun e => .int64 e.1 },
    { name := "stars", value := fun e => e.2.elim .null .int64 }]

/-- The first film is not rated, so the stars of the second are cast to a text. -/
theorem not_repeatsUpsert_ratings :
    ¬ RepeatsUpsert .informix ratingsTable [(1, none), (2, some 5)] [] [] := by
  intro h
  have htypes := castType_eq_of_repeats h (2, some 5) (by simp)
    { name := "stars", value := fun e => e.2.elim .null .int64 } (by simp [ratingsTable])
  exact absurd htypes (by decide)

end CppLinq
