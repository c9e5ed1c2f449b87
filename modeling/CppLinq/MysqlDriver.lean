import CppLinq.Values
import Mathlib.Data.List.Basic
import Mathlib.Data.Fintype.Basic
import Mathlib.Tactic.Linarith

/-!
# The driver of MySQL

Two places of `driver/mysql_connection.cpp`. `execute` and `execute_non_query_direct` send a
text of several statements, and drain their results in a loop that takes a failure for the
end of the results : the failure of any statement but the first is lost
(`reportsFailures_iff`). The reader of a prepared statement gives a column a longer buffer
when a value did not fit, and does not tell the client library, which goes on to write to
the buffer that was freed (`readsRows_iff`).
-/

namespace CppLinq

/-! ## Texts of several statements -/

/-- What comes of a statement : rows, a number of affected rows, or an error. -/
inductive StatementOutcome
  | rows (count : ℕ)
  | affected (count : UInt64)
  | failed (error : String)
  deriving DecidableEq

namespace StatementOutcome

/-- The statement ran. -/
def succeeds : StatementOutcome → Bool
  | .failed _ => false
  | _ => true

end StatementOutcome

/-- The statements of a text. It has one at least : the server takes a text without any for
a statement that fails. -/
structure MysqlScript where
  first : StatementOutcome
  rest : List StatementOutcome

/-- All statements of a text. -/
def MysqlScript.statements (script : MysqlScript) : List StatementOutcome :=
  script.first :: script.rest

/-- The client's side of a connection. -/
structure MysqlClient where
  /-- The outcomes that are not reported yet. -/
  pending : List StatementOutcome
  /-- The number of rows that wait to be stored. -/
  unread : Option ℕ
  affectedRows : UInt64
  error : String

namespace MysqlClient

/-- The report of an outcome, `0` for success. Nothing comes after a failed statement : the
server does not run the rest of the text. -/
def report (c : MysqlClient) (rest : List StatementOutcome) : StatementOutcome → ℤ × MysqlClient
  | .rows n => (0, { c with pending := rest, unread := some n, affectedRows := -1 })
  | .affected n => (0, { c with pending := rest, unread := none, affectedRows := n })
  | .failed e => (1, { pending := [], unread := none, affectedRows := -1, error := e })

/-- `mysql_real_query`, which reports the first statement. -/
def realQuery (c : MysqlClient) (script : MysqlScript) : ℤ × MysqlClient :=
  c.report script.rest script.first

/-- `mysql_next_result`, which reports the next statement, or `-1` when there is none. -/
def nextResult (c : MysqlClient) : ℤ × MysqlClient :=
  match c.pending with
  | [] => (-1, c)
  | o :: rest => c.report rest o

/-- `mysql_store_result`. -/
def storeResult (c : MysqlClient) : Option ℕ × MysqlClient :=
  (c.unread, { c with unread := none })

/-- A client reports failures, and nothing else. -/
@[simp] theorem report_fst (c : MysqlClient) (rest : List StatementOutcome)
    (o : StatementOutcome) : (c.report rest o).1 = 0 ↔ o.succeeds = true := by
  cases o <;> simp [report, StatementOutcome.succeeds]

theorem report_pending {c : MysqlClient} {rest : List StatementOutcome} {o : StatementOutcome}
    (h : (c.report rest o).1 = 0) : (c.report rest o).2.pending = rest := by
  cases o with
  | failed e => exact absurd h (by simp [report])
  | _ => rfl

/-- A report of `0` takes one outcome from those that are pending. -/
theorem nextResult_pending {c : MysqlClient} (h : c.nextResult.1 = 0) :
    c.nextResult.2.pending.length < c.pending.length := by
  unfold nextResult at h ⊢
  cases hpending : c.pending with
  | nil => simp [hpending] at h
  | cons o rest =>
    simp only [hpending] at h ⊢
    rw [report_pending h]
    exact Nat.lt_succ_self _

/-- The loop that drains the results. -/
def drain (c : MysqlClient) : MysqlClient :=
  if c.nextResult.1 = 0 then c.nextResult.2.storeResult.2.drain else c.nextResult.2
termination_by c.pending.length
decreasing_by exact nextResult_pending ‹_›

end MysqlClient

/-- `MysqlConnection`, up to what its results need. -/
structure MysqlConnection where
  conn : Option MysqlClient
  /-- Whether the server answers `mysql_ping`. -/
  answers : Bool

namespace MysqlConnection

variable (m : MysqlConnection)

/-- The client of an open connection. -/
def client : Option MysqlClient :=
  if m.answers then m.conn else none

/-- `is_open`. -/
def isOpen : Bool :=
  m.client.isSome

/-- `execute`. -/
def execute (script : MysqlScript) : Except Exn Unit × MysqlConnection :=
  match m.client with
  | none => (.error (.dbException "Cannot execute SQL: MySQL connection is not open"), m)
  | some c =>
    let (rc, c) := c.realQuery script
    if rc ≠ 0 then
      (.error (.dbException ("MySQL execute failed: " ++ c.error)), { m with conn := some c })
    else (.ok (), { m with conn := some c.storeResult.2.drain })

/-- `execute_non_query_direct`. -/
def executeNonQueryDirect (script : MysqlScript) : Except Exn UInt64 × MysqlConnection :=
  match m.client with
  | none => (.error (.dbException "Cannot execute non-query: MySQL connection is not open"), m)
  | some c =>
    let (rc, c) := c.realQuery script
    if rc ≠ 0 then
      (.error (.dbException ("MySQL direct non-query failed: " ++ c.error)),
        { m with conn := some c })
    else
      (.ok (if c.affectedRows = -1 then 0 else c.affectedRows),
        { m with conn := some c.storeResult.2.drain })

/-- A call returns just when something went well, and throws a `DbException` else. -/
def Reports {α : Type} (wentWell : Prop) : Except Exn α → Prop
  | .ok _ => wentWell
  | .error (.dbException _) => ¬ wentWell
  | .error _ => False

/-- Both calls return just when all statements succeeded. -/
def ReportsFailures (script : MysqlScript) : Prop :=
  Reports (m.isOpen ∧ ∀ o ∈ script.statements, o.succeeds) (m.execute script).1 ∧
    Reports (m.isOpen ∧ ∀ o ∈ script.statements, o.succeeds) (m.executeNonQueryDirect script).1

variable {m}

theorem reports_closed (h : m.isOpen = false) (script : MysqlScript) :
    m.ReportsFailures script := by
  have hclient : m.client = none := by simpa [isOpen] using h
  simp [ReportsFailures, execute, executeNonQueryDirect, hclient, Reports, h]

/-- On an open connection the calls return just when the first statement succeeded. -/
theorem reports_open (h : m.isOpen = true) (script : MysqlScript) :
    m.ReportsFailures script ↔
      (script.first.succeeds ↔ ∀ o ∈ script.statements, o.succeeds) := by
  obtain ⟨c, hclient⟩ := Option.isSome_iff_exists.mp h
  have hfirst := c.report_fst script.rest script.first
  by_cases hsucceeds : script.first.succeeds = true
  · have hrc := hfirst.mpr hsucceeds
    simp [ReportsFailures, execute, executeNonQueryDirect, hclient, MysqlClient.realQuery, hrc,
      Reports, h, hsucceeds]
  · have hrc := mt hfirst.mp hsucceeds
    simp [ReportsFailures, execute, executeNonQueryDirect, hclient, MysqlClient.realQuery, hrc,
      Reports, h, hsucceeds, MysqlScript.statements]

variable (m)

/-- The calls report failures just when the first statement fails, or no other does. -/
theorem reportsFailures_iff (script : MysqlScript) :
    m.ReportsFailures script ↔
      (m.isOpen = true → script.first.succeeds = true → ∀ o ∈ script.rest, o.succeeds = true) := by
  cases hopen : m.isOpen with
  | false => simp [reports_closed hopen script]
  | true =>
    rw [reports_open hopen script, MysqlScript.statements]
    constructor
    · intro h _ hfirst o ho
      exact h.mp hfirst o (List.mem_cons_of_mem _ ho)
    · intro h
      constructor
      · intro hfirst o ho
        rcases List.mem_cons.mp ho with rfl | ho
        · exact hfirst
        · exact h rfl hfirst o ho
      · intro hall
        exact hall _ List.mem_cons_self

/-- An open connection. -/
def opened : MysqlConnection where
  conn := some { pending := [], unread := none, affectedRows := 0, error := "" }
  answers := true

/-- A migration whose second statement fails goes for a success. -/
theorem opened_execute_migration :
    (opened.execute ⟨.affected 0, [.failed "Unknown column", .affected 1]⟩).1 = .ok () ∧
      ¬ opened.ReportsFailures ⟨.affected 0, [.failed "Unknown column", .affected 1]⟩ := by
  refine ⟨rfl, fun h => ?_⟩
  have hall : ∀ o ∈ (MysqlScript.mk (.affected 0)
      [.failed "Unknown column", .affected 1]).statements, o.succeeds = true := h.1.2
  exact absurd (hall (.failed "Unknown column") (by simp [MysqlScript.statements])) (by decide)

end MysqlConnection

/-! ## Reading the rows of a prepared statement -/

/-- What the client tells of a column of a result : lengths of its values. -/
structure MysqlField where
  maxLength : ℕ
  length : ℕ

/-- Where a value goes, and how much of it. -/
structure MysqlBind where
  address : ℕ
  bufferLength : ℕ

/-- The buffer of a column, a `std::vector<char>`, and what a fetch tells of the value. -/
structure ColumnBind where
  buffer : List UInt8
  capacity : ℕ
  /-- The place of the buffer, another one whenever the buffer moves. -/
  address : ℕ
  length : ℕ
  isNull : Bool
  error : Bool

namespace ColumnBind

/-- `std::vector::resize`, which moves the buffer when the capacity does not suffice. -/
def resize (c : ColumnBind) (size : ℕ) : ColumnBind :=
  let buffer := c.buffer.take size ++ List.replicate (size - c.buffer.length) 0
  if size ≤ c.capacity then { c with buffer := buffer }
  else
    { c with
      buffer := buffer
      capacity := max size (2 * c.buffer.length)
      address := c.address + 1 }

/-- A column whose buffer got a prefix of a value. -/
def written (c : ColumnBind) (b : MysqlBind) (value : List UInt8) : ColumnBind :=
  { c with
    buffer := value.take b.bufferLength ++ c.buffer.drop (value.take b.bufferLength).length
    length := value.length
    isNull := false
    error := decide (b.bufferLength < value.length) }

/-- Write a prefix of a value where the client was told to. There is no result when the
buffer has moved since, or is too short : the behaviour is undefined. -/
def write (c : ColumnBind) (b : MysqlBind) (value : List UInt8) : Option ColumnBind :=
  if b.address = c.address ∧ b.bufferLength ≤ c.buffer.length then some (c.written b value)
  else none

/-- What is written stays within the buffer. -/
theorem length_written {c : ColumnBind} {b : MysqlBind} (h : b.bufferLength ≤ c.buffer.length)
    (value : List UInt8) : (c.written b value).buffer.length = c.buffer.length := by
  have hle : (value.take b.bufferLength).length ≤ b.bufferLength := List.length_take_le _ _
  rw [written, List.length_append, List.length_drop]
  omega

theorem take_written (c : ColumnBind) {b : MysqlBind} {value : List UInt8}
    (h : value.length ≤ b.bufferLength) :
    (c.written b value).buffer.take value.length = value := by
  rw [written, List.take_of_length_le h]
  exact List.take_left

/-- A buffer that has to grow moves. -/
theorem resize_of_lt {c : ColumnBind} {size : ℕ} (h : c.capacity < size) :
    (c.resize size).address = c.address + 1 := by
  rw [resize, if_neg (Nat.not_le_of_lt h)]

theorem length_resize (c : ColumnBind) (size : ℕ) : (c.resize size).buffer.length = size := by
  unfold resize
  split
  all_goals
    simp only [List.length_append, List.length_take, List.length_replicate]
    omega

/-- Fetch the value of a column. -/
def fetch (c : ColumnBind) (b : MysqlBind) : Option (List UInt8) → Option ColumnBind
  | none => some { c with isNull := true, error := false }
  | some value => c.write b value

/-- Fetch a value again that did not fit. -/
def refetch (c : ColumnBind) (b : MysqlBind) (value : Option (List UInt8)) :
    Option (ColumnBind × MysqlBind) :=
  if c.error ∨ c.length > c.buffer.length - 1 then
    let needed := c.length
    let c := c.resize (needed + 1)
    let b := { address := c.address, bufferLength := needed }
    (c.fetch b value).map (·, b)
  else some (c, b)

end ColumnBind

/-- A row of a result with `n` columns. -/
abbrev MysqlRow (n : ℕ) := Fin n → Option (List UInt8)

/-- What `mysql_stmt_fetch` comes upon. -/
inductive FetchResult (n : ℕ)
  | row (values : MysqlRow n)
  | noData
  | failed (error : String)

/-- The value of a column in what was fetched. -/
def FetchResult.value {n : ℕ} : FetchResult n → Fin n → Option (List UInt8)
  | .row values, i => values i
  | _, _ => none

/-- `MysqlStmtDataReader`, with the memory that its statement writes to. -/
structure MysqlStmtDataReader (n : ℕ) where
  colBinds : Fin n → ColumnBind
  binds : Fin n → MysqlBind
  /-- The copy of `binds` that `mysql_stmt_bind_result` made. -/
  bound : Fin n → MysqlBind
  hasFetched : Bool

/-- The length of the buffer that a column has at first. -/
def MysqlField.bufSize (f : MysqlField) : ℕ :=
  min (max (max f.maxLength f.length) 256) 65536

namespace MysqlStmtDataReader

variable {n : ℕ}

/-- The reader of a result, with buffers that are told to the client. -/
def initial (fields : Fin n → MysqlField) : MysqlStmtDataReader n where
  colBinds i := {
    buffer := List.replicate ((fields i).bufSize + 1) 0
    capacity := (fields i).bufSize + 1
    address := 0
    length := 0
    isNull := false
    error := false }
  binds i := ⟨0, (fields i).bufSize⟩
  bound i := ⟨0, (fields i).bufSize⟩
  hasFetched := false

/-- The constructor, given the error of `mysql_stmt_bind_result`, if any. -/
def make (fields : Fin n → MysqlField) (bindError : Option String) :
    Except Exn (MysqlStmtDataReader n) :=
  match bindError with
  | some err => .error (.dbException ("mysql_stmt_bind_result failed: " ++ err))
  | none => .ok (initial fields)

/-- The values of all columns, if each is defined. -/
def all {α : Type} (f : Fin n → Option α) : Option (Fin n → α) :=
  if h : ∀ i, (f i).isSome then some fun i => (f i).get (h i) else none

/-- `mysql_stmt_fetch` of a row. -/
def stmtFetch (r : MysqlStmtDataReader n) (row : MysqlRow n) : Option (Fin n → ColumnBind) :=
  all fun i => (r.colBinds i).fetch (r.bound i) (row i)

/-- The `next` of a reader with a column at least. -/
def nextOf (r : MysqlStmtDataReader n) :
    FetchResult n → Option (Except Exn Bool × MysqlStmtDataReader n)
  | .failed err => some (.error (.dbException ("mysql_stmt_fetch failed: " ++ err)), r)
  | .noData => some (.ok false, r)
  | .row row => do
    let cols ← r.stmtFetch row
    if ∃ i, (cols i).error then
      let refetched ← all fun i => (cols i).refetch (r.binds i) (row i)
      some (.ok true, { r with
        colBinds := fun i => (refetched i).1
        binds := fun i => (refetched i).2
        hasFetched := true })
    else some (.ok true, { r with colBinds := cols, hasFetched := true })

/-- `next`. -/
def next (r : MysqlStmtDataReader n) (f : FetchResult n) :
    Option (Except Exn Bool × MysqlStmtDataReader n) :=
  if n = 0 then some (.ok false, r) else r.nextOf f

variable (r : MysqlStmtDataReader n)

/-- `is_null`. -/
def isNull (i : Fin n) : Bool :=
  !r.hasFetched || (r.colBinds i).isNull

/-- `get_string_view`. -/
def getStringView (i : Fin n) : List UInt8 :=
  if r.isNull i then [] else (r.colBinds i).buffer.take (r.colBinds i).length

/-- `get_blob`. -/
def getBlob (i : Fin n) : List UInt8 :=
  if r.isNull i then [] else (r.colBinds i).buffer.take (r.colBinds i).length

/-- The getters return a value, where `none` is `NULL`. -/
def Shows (i : Fin n) (value : Option (List UInt8)) : Prop :=
  r.isNull i = value.isNone ∧ r.getStringView i = value.getD [] ∧ r.getBlob i = value.getD []

/-- Whatever is fetched, each row that `next` reads is what the getters return. -/
def ReadsRows (r : MysqlStmtDataReader n) : List (FetchResult n) → Prop
  | [] => True
  | f :: fs => ∃ result r', r.next f = some (result, r') ∧
      (result = .ok true → ∀ i, r'.Shows i (f.value i)) ∧ r'.ReadsRows fs

end MysqlStmtDataReader

/-- A value that the buffer of a column cannot hold at first. -/
def Exceeds (size : ℕ) : Option (List UInt8) → Prop
  | none => False
  | some value => size < value.length

/-- A column between two calls of `next`, whose buffer moved or did not. -/
structure ColumnInv (size : ℕ) (moved : Prop) (c : ColumnBind) (bound : MysqlBind) : Prop where
  bound_eq : bound = ⟨0, size⟩
  length_lt : c.length < c.buffer.length
  size_lt : size < c.buffer.length
  inPlace : ¬ moved → c.address = 0 ∧ c.capacity = size + 1
  away : moved → c.address ≠ 0

/-- The buffer of a column holds a value. -/
def ColumnBind.Holds (c : ColumnBind) (value : Option (List UInt8)) : Prop :=
  c.isNull = value.isNone ∧ ∀ bytes, value = some bytes → c.buffer.take c.length = bytes

namespace ColumnInv

variable {size : ℕ} {moved : Prop} {c : ColumnBind} {bound : MysqlBind}

/-- What MySQL may write fits the buffer. -/
theorem bufferLength_le (h : ColumnInv size moved c bound) :
    bound.bufferLength ≤ c.buffer.length := by
  rw [h.bound_eq]
  exact h.size_lt.le

/-- The client may write to a buffer that did not move. -/
theorem writable (h : ColumnInv size moved c bound) (hin : ¬ moved) :
    bound.address = c.address ∧ bound.bufferLength ≤ c.buffer.length := by
  refine ⟨?_, h.bufferLength_le⟩
  rw [h.bound_eq]
  exact (h.inPlace hin).1.symm

/-- No value is read into a buffer that moved. -/
theorem fetch_moved (h : ColumnInv size moved c bound) (hmoved : moved)
    {value : Option (List UInt8)} (hvalue : value ≠ none) : c.fetch bound value = none := by
  obtain ⟨bytes, rfl⟩ := Option.ne_none_iff_exists'.mp hvalue
  have haddress : bound.address ≠ c.address := by
    rw [h.bound_eq]
    exact (h.away hmoved).symm
  rw [ColumnBind.fetch, ColumnBind.write, if_neg (fun hplace => haddress hplace.1)]

/-- A value that fits is read in one go. -/
theorem fetch_fits (h : ColumnInv size moved c bound) {value : Option (List UInt8)}
    (hmoved : moved → value = none) (hfits : ¬ Exceeds size value) :
    ∃ c', c.fetch bound value = some c' ∧ c'.error = false ∧
      ColumnInv size moved c' bound ∧ c'.Holds value := by
  cases value with
  | none =>
    exact ⟨_, rfl, rfl, ⟨h.bound_eq, h.length_lt, h.size_lt, h.inPlace, h.away⟩, rfl, nofun⟩
  | some bytes =>
    have hin : ¬ moved := fun hm => Option.some_ne_none bytes (hmoved hm)
    have hle : bytes.length ≤ bound.bufferLength := by
      rw [h.bound_eq]
      exact Nat.le_of_not_lt hfits
    have hlength := ColumnBind.length_written h.bufferLength_le bytes
    refine ⟨c.written bound bytes, if_pos (h.writable hin), ?_,
      ⟨h.bound_eq, ?_, hlength ▸ h.size_lt, h.inPlace, h.away⟩, rfl, ?_⟩
    · exact decide_eq_false (Nat.not_lt.mpr hle)
    · rw [hlength]
      exact hle.trans_lt (h.bound_eq ▸ h.size_lt)
    · intro value hvalue
      obtain rfl := Option.some.inj hvalue
      exact c.take_written hle

/-- A value that fits is not read again. -/
theorem refetch_fits (h : ColumnInv size moved c bound) (herror : c.error = false)
    (own : MysqlBind) (value : Option (List UInt8)) :
    c.refetch own value = some (c, own) := by
  have := h.length_lt
  rw [ColumnBind.refetch, if_neg]
  simp only [herror, Bool.false_eq_true, false_or, gt_iff_lt, not_lt]
  omega

/-- A value that does not fit is read again into a longer buffer, which is elsewhere. -/
theorem fetch_exceeds (h : ColumnInv size moved c bound) (hin : ¬ moved) {bytes : List UInt8}
    (hexceeds : size < bytes.length) :
    ∃ c', c.fetch bound (some bytes) = some c' ∧ c'.error = true ∧ ∀ own,
      ∃ c'' own', c'.refetch own (some bytes) = some (c'', own') ∧
        ColumnInv size True c'' bound ∧ c''.Holds (some bytes) := by
  have hlt : bound.bufferLength < bytes.length := by
    rw [h.bound_eq]
    exact hexceeds
  have herror : (c.written bound bytes).error = true := decide_eq_true hlt
  refine ⟨c.written bound bytes, if_pos (h.writable hin), herror, fun own => ?_⟩
  -- the buffer grows beyond its capacity
  let grown := (c.written bound bytes).resize (bytes.length + 1)
  let own' : MysqlBind := { address := grown.address, bufferLength := bytes.length }
  have hlength : grown.buffer.length = bytes.length + 1 := ColumnBind.length_resize _ _
  have hcapacity : (c.written bound bytes).capacity < bytes.length + 1 := by
    rw [show (c.written bound bytes).capacity = size + 1 from (h.inPlace hin).2]
    omega
  have haddress : grown.address ≠ 0 := by
    rw [show grown.address = _ from ColumnBind.resize_of_lt hcapacity]
    exact Nat.succ_ne_zero _
  have hwritable : own'.bufferLength ≤ grown.buffer.length := by
    rw [hlength]
    exact Nat.le_succ _
  have hwritten := ColumnBind.length_written hwritable bytes
  refine ⟨grown.written own' bytes, own', ?_, ⟨h.bound_eq, ?_, ?_, fun hno => (hno trivial).elim,
    fun _ => haddress⟩, rfl, ?_⟩
  · rw [ColumnBind.refetch, if_pos (Or.inl herror)]
    change (grown.write own' bytes).map (·, own') = _
    rw [ColumnBind.write, if_pos ⟨rfl, hwritable⟩]
    rfl
  · rw [hwritten, hlength]
    exact Nat.lt_succ_self _
  · rw [hwritten, hlength]
    omega
  · intro value hvalue
    obtain rfl := Option.some.inj hvalue
    exact grown.take_written le_rfl

/-- What reading a value does to its column : a long value, and no other, moves the buffer. -/
theorem fetch_spec (h : ColumnInv size moved c bound) {value : Option (List UInt8)}
    (hmoved : moved → value = none) :
    ∃ c', c.fetch bound value = some c' ∧ ∀ own, ∃ c'' own',
      c'.refetch own value = some (c'', own') ∧ (c'.error = false → c'' = c') ∧
        ColumnInv size (moved ∨ Exceeds size value) c'' bound ∧ c''.Holds value := by
  by_cases hfits : Exceeds size value
  · rw [or_iff_right_of_imp fun _ => hfits]
    cases value with
    | none => exact hfits.elim
    | some bytes =>
      have hin : ¬ moved := fun hm => Option.some_ne_none bytes (hmoved hm)
      obtain ⟨c', hfetch, herror, hrefetch⟩ := h.fetch_exceeds hin hfits
      refine ⟨c', hfetch, fun own => ?_⟩
      obtain ⟨c'', own', hre, hinv, hholds⟩ := hrefetch own
      rw [eq_true hfits]
      exact ⟨c'', own', hre, fun hno => absurd (herror.symm.trans hno) (by decide), hinv,
        hholds⟩
  · rw [or_iff_left hfits]
    obtain ⟨c', hfetch, herror, hinv, hholds⟩ := h.fetch_fits hmoved hfits
    exact ⟨c', hfetch, fun own => ⟨c', own, hinv.refetch_fits herror own value, fun _ => rfl,
      hinv, hholds⟩⟩

end ColumnInv

namespace MysqlStmtDataReader

variable {n : ℕ}

theorem all_eq_some {α : Type} {f : Fin n → Option α} {g : Fin n → α}
    (h : ∀ i, f i = some (g i)) : all f = some g := by
  have hsome : ∀ i, (f i).isSome := fun i => by rw [h i]; rfl
  rw [all, dif_pos hsome]
  congr 1
  funext i
  exact Option.get_of_mem _ (h i)

theorem all_eq_none {α : Type} {f : Fin n → Option α} {i : Fin n} (h : f i = none) :
    all f = none := by
  rw [all, dif_neg]
  intro hsome
  simpa [h] using hsome i

/-- The columns of a reader, of which some moved their buffers. -/
def Inv (size : Fin n → ℕ) (moved : Fin n → Prop) (r : MysqlStmtDataReader n) : Prop :=
  ∀ i, ColumnInv (size i) (moved i) (r.colBinds i) (r.bound i)

theorem inv_initial (fields : Fin n → MysqlField) :
    (initial fields).Inv (fun i => (fields i).bufSize) fun _ => False := by
  intro i
  refine ⟨rfl, ?_, ?_, fun _ => ⟨rfl, rfl⟩, False.elim⟩
  all_goals
    simp [initial]

/-- A column that holds a value shows it. -/
theorem shows_of_holds {r : MysqlStmtDataReader n} {i : Fin n} {value : Option (List UInt8)}
    (hfetched : r.hasFetched = true) (h : (r.colBinds i).Holds value) : r.Shows i value := by
  have hnull : r.isNull i = value.isNone := by
    rw [isNull, hfetched]
    exact h.1
  cases value with
  | none => simp [Shows, getStringView, getBlob, hnull]
  | some bytes => simp [Shows, getStringView, getBlob, hnull, h.2 bytes rfl]

variable {size : Fin n → ℕ} {moved : Fin n → Prop} {r : MysqlStmtDataReader n}

/-- A row that has values only for buffers in their first place is read, and its long values
move their buffers. -/
theorem next_row (hinv : r.Inv size moved) (hn : n ≠ 0) {row : MysqlRow n}
    (hrow : ∀ i, moved i → row i = none) :
    ∃ r', r.next (.row row) = some (.ok true, r') ∧ (∀ i, r'.Shows i (row i)) ∧
      r'.Inv size fun i => moved i ∨ Exceeds (size i) (row i) := by
  choose cols hfetch hrefetch using fun i => (hinv i).fetch_spec (hrow i)
  choose cols' own hre hsame hinv' hholds using fun i => hrefetch i (r.binds i)
  have hstmt : r.stmtFetch row = some cols := all_eq_some hfetch
  rw [next, if_neg hn, nextOf, hstmt]
  by_cases htruncated : ∃ i, (cols i).error = true
  · refine ⟨{ r with colBinds := cols', binds := own, hasFetched := true }, ?_,
      fun i => shows_of_holds rfl (hholds i), hinv'⟩
    change (if _ then _ else _) = _
    rw [if_pos htruncated, all_eq_some hre]
    rfl
  · have hcols : cols' = cols := by
      funext i
      refine hsame i (Bool.eq_false_iff.mpr fun herror => htruncated ⟨i, herror⟩)
    subst hcols
    refine ⟨{ r with colBinds := cols', hasFetched := true }, ?_,
      fun i => shows_of_holds rfl (hholds i), hinv'⟩
    change (if _ then _ else _) = _
    rw [if_neg htruncated]

/-- A value for a buffer that moved is written to where the buffer was. -/
theorem next_moved (hinv : r.Inv size moved) (hn : n ≠ 0) {row : MysqlRow n} {i : Fin n}
    (hmoved : moved i) (hvalue : row i ≠ none) : r.next (.row row) = none := by
  have hfetch := (hinv i).fetch_moved hmoved hvalue
  rw [next, if_neg hn, nextOf, stmtFetch, all_eq_none hfetch]
  rfl

/-- No column has a value after one that its first buffer could not hold. -/
def NoneAfterLong (size : Fin n → ℕ) (fs : List (FetchResult n)) : Prop :=
  fs.Pairwise fun f f' => ∀ i, Exceeds (size i) (f.value i) → f'.value i = none

theorem readsRows_cons {f : FetchResult n} {fs : List (FetchResult n)} {result : Except Exn Bool}
    {r' : MysqlStmtDataReader n} (h : r.next f = some (result, r')) :
    r.ReadsRows (f :: fs) ↔
      (result = .ok true → ∀ i, r'.Shows i (f.value i)) ∧ r'.ReadsRows fs := by
  simp only [ReadsRows, h, Option.some.injEq, Prod.mk.injEq]
  constructor
  · rintro ⟨_, _, ⟨rfl, rfl⟩, hshows, hreads⟩
    exact ⟨hshows, hreads⟩
  · rintro ⟨hshows, hreads⟩
    exact ⟨result, r', ⟨rfl, rfl⟩, hshows, hreads⟩

/-- The rows that are read from a reader some of whose buffers moved. -/
theorem Inv.reads_iff (hn : n ≠ 0) (fs : List (FetchResult n)) :
    ∀ {moved : Fin n → Prop} {r : MysqlStmtDataReader n}, r.Inv size moved →
      (r.ReadsRows fs ↔
        (∀ f ∈ fs, ∀ i, moved i → f.value i = none) ∧ NoneAfterLong size fs) := by
  induction fs with
  | nil => intro moved r _; simp [ReadsRows, NoneAfterLong]
  | cons f fs ih =>
    intro moved r hinv
    rw [NoneAfterLong, List.pairwise_cons, List.forall_mem_cons]
    by_cases hf : ∀ i, moved i → f.value i = none
    · -- one row is read, and its long values move buffers
      have hstep : ∃ result r', r.next f = some (result, r') ∧
          (result = .ok true → ∀ i, r'.Shows i (f.value i)) ∧
            r'.Inv size fun i => moved i ∨ Exceeds (size i) (f.value i) := by
        cases f with
        | row row =>
          obtain ⟨r', hnext, hshows, hinv'⟩ := next_row hinv hn hf
          exact ⟨_, r', hnext, fun _ => hshows, hinv'⟩
        | noData =>
          refine ⟨.ok false, r, by rw [next, if_neg hn]; rfl, nofun, ?_⟩
          simpa [FetchResult.value, Exceeds] using hinv
        | failed err =>
          refine ⟨.error _, r, by rw [next, if_neg hn]; rfl, nofun, ?_⟩
          simpa [FetchResult.value, Exceeds] using hinv
      obtain ⟨result, r', hnext, hshows, hinv'⟩ := hstep
      rw [readsRows_cons hnext, ih hinv']
      constructor
      · rintro ⟨-, hmoved, hrest⟩
        exact ⟨⟨hf, fun f' hf' i hi => hmoved f' hf' i (Or.inl hi)⟩,
          fun f' hf' i hi => hmoved f' hf' i (Or.inr hi), hrest⟩
      · rintro ⟨⟨-, hmoved⟩, hlong, hrest⟩
        exact ⟨hshows, fun f' hf' i hi => hi.elim (hmoved f' hf' i) (hlong f' hf' i), hrest⟩
    · -- a value goes to a buffer that was freed
      refine iff_of_false ?_ fun h => hf h.1.1
      push Not at hf
      obtain ⟨i, hi, hvalue⟩ := hf
      rintro ⟨result, r', hnext, -⟩
      cases f with
      | row row =>
        have hnone : r.next (.row row) = none := next_moved hinv hn hi hvalue
        exact Option.some_ne_none _ (hnext.symm.trans hnone)
      | noData => exact hvalue rfl
      | failed err => exact hvalue rfl

/-- A reader without columns reads no row. -/
theorem readsRows_zero (r : MysqlStmtDataReader 0) (fs : List (FetchResult 0)) :
    r.ReadsRows fs := by
  induction fs with
  | nil => trivial
  | cons f fs ih => exact (readsRows_cons rfl).mpr ⟨nofun, ih⟩

/-- The rows of a result are read just when no column has a value after one that was longer
than the buffer of the column at first. -/
theorem readsRows_iff (fields : Fin n → MysqlField) (fs : List (FetchResult n)) :
    (initial fields).ReadsRows fs ↔ NoneAfterLong (fun i => (fields i).bufSize) fs := by
  by_cases hn : n = 0
  · subst hn
    refine iff_of_true (readsRows_zero _ fs) ?_
    exact List.pairwise_of_forall fun _ _ i => i.elim0
  · rw [(inv_initial fields).reads_iff hn fs]
    exact and_iff_right fun _ _ _ hfalse => hfalse.elim

/-- A result with one text column. -/
def oneText : Fin 1 → MysqlField := fun _ => ⟨0, 255⟩

/-- The row after a long one is not read. -/
theorem oneText_short_after_long :
    ¬ (initial oneText).ReadsRows
      [.row fun _ => some (List.replicate 300 97), .row fun _ => some [98]] := by
  rw [(inv_initial oneText).reads_iff Nat.one_ne_zero]
  rintro ⟨-, hrows⟩
  have hlong : Exceeds (oneText 0).bufSize (some (List.replicate 300 97)) := by
    change 256 < (List.replicate 300 _).length
    rw [List.length_replicate]
    decide
  have hshort := (List.pairwise_cons.mp hrows).1 _ List.mem_cons_self 0 hlong
  exact absurd hshort (Option.some_ne_none _)

end MysqlStmtDataReader

end CppLinq
