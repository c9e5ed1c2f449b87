import CppLinq.FlatTransaction
import CppLinq.Session

/-!
# The database behind a driver

What the calls of a session do to the database, for the drivers of `src/driver/` : the
statement prepared last and its parameters, the store with its transaction
(`Database.step`), and which calls throw (`Server.driver`). What a statement does to the
rows, which calls fail and what a failed statement leaves behind are the server's affair
(`Server`).
-/

namespace CppLinq

/-- The drivers, by what ends and begins their transactions : SQL statements, or the
autocommit attribute and `SQLEndTran`. -/
inductive ServerKind
  | sqlite | postgres | mysql | odbc
  deriving DecidableEq, Repr

/-- `BEGIN` in SQLite and PostgreSQL, `START TRANSACTION` in MySQL, and the autocommit
attribute, which ODBC drivers find switched off already. -/
def ServerKind.nesting : ServerKind → Nesting
  | .sqlite => .refused
  | .postgres => .ignored
  | .mysql => .commits
  | .odbc => .ignored

/-- What the server of a connection does, and its driver. -/
structure Server (δ : Type) where
  kind : ServerKind
  /-- The effect of a statement with its parameters. -/
  exec : Text → List BoundValue → δ → δ
  /-- The calls that throw for a reason of their own. -/
  fails : Driver
  /-- What a statement that throws leaves behind. -/
  spoils : List DriverCall → DriverCall → δ → δ
  /-- The rows that an ODBC driver leaves out of an array. It goes on with the others, and
  `SQLExecute` reports success with information. -/
  leavesOut : Text → List BoundValue → δ → Bool := fun _ _ _ => false

/-- The first `count` parts of a list, `size` elements each. -/
def parts {α : Type} (size count : ℕ) (xs : List α) : List (List α) :=
  (List.range count).map fun i => (xs.drop (i * size)).take size

/-- The rows of a batch. -/
def batchRows (flatParams : List BoundValue) (colCount rowCount : ℕ) : List (List BoundValue) :=
  parts colCount rowCount flatParams

/-- The parameters with one more bound. -/
def bindAt (position : ℕ) (value : BoundValue) (bound : List BoundValue) : List BoundValue :=
  if position < bound.length then bound.set position value
  else bound ++ List.replicate (position - bound.length) .null ++ [value]

/-- The store of a server, with what a connection has prepared. -/
structure Database (δ : Type) where
  store : Store δ
  /-- The statement prepared last, and its parameters. -/
  sql : Text
  bound : List BoundValue

namespace Server

variable {δ : Type} (server : Server δ)

/-- The effect of a statement for a row of an array. `check_rc` takes success with information
for success, and nobody asks for the status of the rows. -/
def execArrayRow (sql : Text) (x : δ) (row : List BoundValue) : δ :=
  if server.kind = .odbc ∧ server.leavesOut sql row x = true then x else server.exec sql row x

/-- The effect of a statement for each row of an array. -/
def execArray (sql : Text) (rows : List (List BoundValue)) (x : δ) : δ :=
  rows.foldl (server.execArrayRow sql) x

/-- The effect of `insert_many_batch`, which every driver leaves at once without rows or
columns. -/
def execBatch (sql : Text) (flatParams : List BoundValue) (colCount rowCount : ℕ) (x : δ) : δ :=
  if rowCount = 0 ∨ colCount = 0 then x
  else server.execArray sql (batchRows flatParams colCount rowCount) x

/-- The calls that throw by the rules of the transactions. -/
def refuses (db : Database δ) : DriverCall → Option Exn
  | .beginTransaction =>
    if server.kind = .sqlite ∧ db.store.pending.isSome then some (.dbException
      "SQLite execute failed: cannot start a transaction within a transaction") else none
  | .commit =>
    if server.kind = .sqlite ∧ db.store.pending.isNone then some (.dbException
      "SQLite execute failed: cannot commit - no transaction is active") else none
  | .rollback =>
    if server.kind = .sqlite ∧ db.store.pending.isNone then some (.dbException
      "SQLite execute failed: cannot rollback - no transaction is active") else none
  | _ => none

end Server

/-- The database after a call that threw or not. -/
def Database.step {δ : Type} (server : Server δ) (db : Database δ) (log : List DriverCall)
    (threw : Bool) (c : DriverCall) : Database δ :=
  let write (f : δ → δ) : Database δ :=
    { db with store := db.store.write (if threw then server.spoils log c else f) }
  match c with
  | .prepare sql => if threw then db else { db with sql := sql, bound := [] }
  | .setTimeout _ | .setStopToken => db
  | .reset => { db with bound := [] }
  | .bind position value =>
    if threw then db else { db with bound := bindAt position value db.bound }
  | .executeQuery | .executeNonQuery => write (server.exec db.sql db.bound)
  | .executeQueryDirect sql | .executeNonQueryDirect sql => write (server.exec sql [])
  | .insertManyBatch sql flatParams colCount rowCount =>
    write (server.execBatch sql flatParams colCount rowCount)
  | .beginTransaction =>
    if threw then db else { db with store := db.store.begin server.kind.nesting }
  | .commit =>
    if threw then
      -- SQLite keeps the transaction, for another attempt
      if server.kind = .sqlite then db else { db with store := db.store.rollback }
    else { db with store := db.store.commit }
  -- a rollback that reports an error has lost the transaction just the same
  | .rollback => { db with store := db.store.rollback }

namespace Server

variable {δ : Type} (server : Server δ)

/-- The exception of a call on a database, if it throws. -/
def answer (db : Database δ) (log : List DriverCall) (c : DriverCall) : Option Exn :=
  (server.refuses db c).or (server.fails log c)

/-- One more call, on the calls so far and their database. -/
def next (p : List DriverCall × Database δ) (c : DriverCall) : List DriverCall × Database δ :=
  (p.1 ++ [c], p.2.step server p.1 (server.answer p.2 p.1 c).isSome c)

/-- The database after calls that start on `db`. -/
def after (db : Database δ) (log : List DriverCall) : Database δ :=
  (log.foldl server.next ([], db)).2

/-- The driver of the server. -/
def driver (db : Database δ) : Driver :=
  fun log c => server.answer (server.after db log) log c

theorem foldl_next_fst (p : List DriverCall × Database δ) (log : List DriverCall) :
    (log.foldl server.next p).1 = p.1 ++ log := by
  induction log generalizing p with
  | nil => rw [List.foldl_nil, List.append_nil]
  | cons c log ih =>
    rw [List.foldl_cons, ih, next, List.append_assoc]
    rfl

@[simp] theorem after_nil (db : Database δ) : server.after db [] = db :=
  rfl

/-- The last call, after the others. -/
theorem after_concat (db : Database δ) (log : List DriverCall) (c : DriverCall) :
    server.after db (log ++ [c]) =
      (server.after db log).step server log (server.driver db log c).isSome c := by
  have hlog := server.foldl_next_fst ([], db) log
  rw [after, List.foldl_append, List.foldl_cons, List.foldl_nil, next, hlog]
  rfl

end Server

/-! ## Parts of a list -/

theorem parts_succ {α : Type} (size count : ℕ) (xs : List α) :
    parts size (count + 1) xs = parts size count xs ++ [(xs.drop (count * size)).take size] := by
  rw [parts, List.range_succ, List.map_append]
  rfl

/-- The parts are a beginning of the list. -/
theorem flatten_parts {α : Type} (size count : ℕ) (xs : List α) :
    (parts size count xs).flatten = xs.take (count * size) := by
  induction count with
  | zero => rw [Nat.zero_mul, List.take_zero]; rfl
  | succ count ih =>
    rw [parts_succ, List.flatten_append, ih, List.flatten_singleton, Nat.succ_mul, List.take_add]

/-- The parts of rows of equal length are the rows. -/
theorem parts_flatMap {α β : Type} {size : ℕ} (f : α → List β) (hf : ∀ x, (f x).length = size)
    (xs : List α) : parts size xs.length (xs.flatMap f) = xs.map f := by
  induction xs using List.reverseRecOn with
  | nil => rfl
  | append_singleton xs x ih =>
    have hlength : (xs.flatMap f).length = xs.length * size := by
      simp [List.length_flatMap, hf]
    have hinit : parts size xs.length (xs.flatMap f ++ f x) =
        parts size xs.length (xs.flatMap f) := by
      refine List.map_congr_left fun i hi => ?_
      rw [List.mem_range] at hi
      have hle : i * size + size ≤ (xs.flatMap f).length := by
        rw [hlength, ← Nat.succ_mul]
        exact Nat.mul_le_mul_right size hi
      rw [List.drop_append_of_le_length (by omega),
        List.take_append_of_le_length (by rw [List.length_drop]; omega)]
    have hlast : ((xs.flatMap f ++ f x).drop (xs.length * size)).take size = f x := by
      rw [← hlength, List.drop_left, ← hf x, List.take_length]
    rw [List.length_append, List.length_singleton, List.flatMap_append, List.flatMap_singleton,
      parts_succ, hinit, ih, hlast, List.map_append]
    rfl

end CppLinq
